import SourceOutline.Proofs.Json.Fields
import SourceOutline.Proofs.Scan.Names

/-! Where paths lead, and what stays in place when directories are made. -/

namespace SourceOutline

namespace FileTree

/-- A tree in which every directory has at most one entry of a name, and only names that can be. -/
inductive IsProper : FileTree → Prop where
  /-- A file holds no names. -/
  | file (content : ByteArray) : IsProper (.file content)
  /-- The entries of a directory are told apart by their names, and are proper themselves. -/
  | directory {entries : List (String × FileTree)} (distinct : (entries.map Prod.fst).Nodup)
    (named : ∀ entry ∈ entries, FilePath.IsName entry.1) (inner : ∀ entry ∈ entries, IsProper entry.2) :
    IsProper (.directory entries)

/-- The names in a proper directory can be names. -/
theorem IsProper.named {entries : List (String × FileTree)} (proper : (FileTree.directory entries).IsProper) :
    ∀ entry ∈ entries, FilePath.IsName entry.1 := by
  cases proper with
  | directory distinct named inner => exact named

/-- The entries of a proper directory are proper. -/
theorem IsProper.inner {entries : List (String × FileTree)} (proper : (FileTree.directory entries).IsProper) :
    ∀ entry ∈ entries, entry.2.IsProper := by
  cases proper with
  | directory distinct named inner => exact inner

/-- The names in a proper directory are distinct. -/
theorem IsProper.distinct {entries : List (String × FileTree)} (proper : (FileTree.directory entries).IsProper) :
    (entries.map Prod.fst).Nodup := by
  cases proper with
  | directory distinct named inner => exact distinct

/-- Every entry is found under its name. -/
theorem entry?_of_mem {entries : List (String × FileTree)} (distinct : (entries.map Prod.fst).Nodup)
    {entry : String × FileTree} (member : entry ∈ entries) :
    FileTree.entry? (.directory entries) entry.1 = some entry.2 := by
  unfold entry? FileTree.entries
  induction entries with
  | nil => cases member
  | cons first rest ih =>
    obtain ⟨apart, distinct⟩ := List.nodup_cons.mp distinct
    rcases List.mem_cons.mp member with rfl | later
    · simp
    · have other : first.1 ≠ entry.1 := fun same => apart (same ▸ List.mem_map_of_mem later)
      rw [List.find?_cons_of_neg (by simpa using other)]
      exact ih distinct later

/-- Names lead on from where they have led to. -/
theorem at?_append (tree : FileTree) (names more : List String) :
    tree.at? (names ++ more) = (tree.at? names).bind fun inner => inner.at? more := by
  induction names generalizing tree with
  | nil => rfl
  | cons name rest ih =>
    rw [List.cons_append, at?, at?]
    cases tree.entry? name with
    | none => rfl
    | some inner => exact ih inner

/-- What stands in a proper tree is proper. -/
theorem IsProper.at? {tree inner : FileTree} (proper : tree.IsProper) {names : List String}
    (there : tree.at? names = some inner) : inner.IsProper := by
  induction names generalizing tree with
  | nil => exact Option.some.inj there ▸ proper
  | cons name rest ih =>
    obtain ⟨next, isNext, there⟩ := Option.bind_eq_some_iff.mp there
    cases tree with
    | file content => cases isNext
    | directory entries =>
      obtain ⟨entry, found, rfl⟩ := Option.map_eq_some_iff.mp isNext
      exact ih (proper.inner entry (List.mem_of_find?_eq_some found)) there

/-- One more name leads to an entry. -/
theorem at?_concat (tree : FileTree) (names : List String) (name : String) :
    tree.at? (names ++ [name]) = (tree.at? names).bind fun inner => inner.entry? name := by
  rw [at?_append]
  congr
  funext inner
  rw [at?]
  cases inner.entry? name <;> rfl

/-- What is put under a name does not hide entries of other names. -/
theorem find?_putEntry_of_ne {name other : String} (apart : other ≠ name) (added : FileTree)
    (entries : List (String × FileTree)) :
    (putEntry name added entries).find? (fun entry => entry.1 == other) =
      entries.find? fun entry => entry.1 == other := by
  induction entries with
  | nil => simp [putEntry, apart.symm]
  | cons entry rest ih =>
    rw [putEntry]
    split
    · rename_i same
      have passed : (entry.1 == other) = false := by
        rw [beq_iff_eq] at same
        simp [same, apart.symm]
      rw [List.find?_cons_of_neg (by simp [apart.symm]), List.find?_cons_of_neg (by simp [passed])]
    · rw [List.find?_cons, List.find?_cons, ih]

/-- A tree keeps what another holds: files stay as they are, and directories stay directories. -/
structure Keeps (tree later : FileTree) : Prop where
  /-- Files stay. -/
  files : ∀ names content, tree.at? names = some (.file content) → later.at? names = some (.file content)
  /-- Directories stay. -/
  directories : ∀ names entries, tree.at? names = some (.directory entries) →
    ∃ others, later.at? names = some (.directory others)

/-- Everything is kept where nothing changes. -/
theorem Keeps.refl (tree : FileTree) : tree.Keeps tree :=
  ⟨fun _ _ found => found, fun _ entries found => ⟨entries, found⟩⟩

/-- What is kept and kept again is kept. -/
theorem Keeps.trans {first second third : FileTree} (early : first.Keeps second)
    (late : second.Keeps third) : first.Keeps third := by
  refine ⟨fun names content found => late.files names content (early.files names content found),
    fun names entries found => ?_⟩
  obtain ⟨others, there⟩ := early.directories names entries found
  exact late.directories names others there

/-- Entries of other names are found as before one is put. -/
theorem entry?_putEntry (name other : String) (added : FileTree) (entries : List (String × FileTree)) :
    FileTree.entry? (.directory (putEntry name added entries)) other =
      if other = name then some added else FileTree.entry? (.directory entries) other := by
  unfold entry?
  split
  · rename_i same
    rw [same]
    exact find?_putEntry_self name added entries
  · rename_i apart
    exact congrArg _ (find?_putEntry_of_ne apart added entries)

/-- A directory in which one entry is added, or gives way to one that keeps what it holds, keeps
everything. -/
theorem keeps_putEntry {entries : List (String × FileTree)} {name : String} {added : FileTree}
    (gives : ∀ old, FileTree.entry? (.directory entries) name = some old → old.Keeps added) :
    (FileTree.directory entries).Keeps (.directory (putEntry name added entries)) := by
  -- Below the name everything is looked up in what was put, and elsewhere as before.
  have found : ∀ other rest, (FileTree.directory (putEntry name added entries)).at? (other :: rest) =
      if other = name then added.at? rest else (FileTree.directory entries).at? (other :: rest) := by
    intro other rest
    rw [at?, at?, entry?_putEntry]
    split <;> rfl
  constructor
  · rintro (_ | ⟨other, rest⟩) content there
    · cases there
    · rw [found]
      split
      · rename_i same
        obtain ⟨old, isOld, there⟩ := Option.bind_eq_some_iff.mp there
        exact (gives old (same ▸ isOld)).files rest content there
      · exact there
  · rintro (_ | ⟨other, rest⟩) others there
    · exact ⟨_, rfl⟩
    · rw [found]
      split
      · rename_i same
        obtain ⟨old, isOld, there⟩ := Option.bind_eq_some_iff.mp there
        exact (gives old (same ▸ isOld)).directories rest others there
      · exact ⟨others, there⟩

/-- An entry that is put where a directory has none leaves everything else in place. -/
theorem keeps_put {tree : FileTree} {names : List String} {name : String}
    {entries : List (String × FileTree)} (above : tree.at? names = some (.directory entries))
    (free : tree.at? (names ++ [name]) = none) (added : FileTree) :
    tree.Keeps (tree.put (names ++ [name]) added) := by
  induction names generalizing tree with
  | nil =>
    obtain rfl : tree = .directory entries := by simpa [at?] using above
    refine keeps_putEntry fun old isOld => ?_
    rw [List.nil_append, at?, isOld] at free
    cases free
  | cons first rest ih =>
    obtain ⟨inner, isInner, there⟩ := Option.bind_eq_some_iff.mp above
    cases tree with
    | file content => cases isInner
    | directory all =>
      rw [List.cons_append, at?, isInner, Option.bind_some] at free
      rw [List.cons_append, put, isInner]
      refine keeps_putEntry fun old isOld => ?_
      obtain rfl : inner = old := Option.some.inj (isInner.symm.trans isOld)
      exact ih there free

end FileTree

namespace Disk

/-- A disk keeps what another holds, and paths start where they did. -/
structure Keeps (disk later : Disk) : Prop where
  /-- Files and directories stay. -/
  tree : disk.root.Keeps later.root
  /-- Relative paths start in the same directory. -/
  start : later.workingDirectory = disk.workingDirectory

/-- A step starts from a directory. -/
theorem exists_directory_of_step {disk : Disk} {names next : List String} {name : String}
    (gone : disk.step names name = .ok next) :
    ∃ entries, disk.root.at? names = some (.directory entries) := by
  rw [step] at gone
  split at gone
  · cases gone
  · cases gone
  · rename_i entries there
    exact ⟨entries, there⟩

/-- A step leads to the same place wherever it starts from a directory. -/
theorem step_of_directory {disk later : Disk} {names next : List String} {name : String}
    {others : List (String × FileTree)} (gone : disk.step names name = .ok next)
    (still : later.root.at? names = some (.directory others)) : later.step names name = .ok next := by
  obtain ⟨entries, there⟩ := exists_directory_of_step gone
  rw [step, there] at gone
  rw [step, still]
  exact gone

/-- Steps that can be gone on two disks lead to the same place, and they can be gone wherever what is a
directory on both is one. -/
theorem foldlM_step_of_both {disk left later : Disk}
    (stay : ∀ names entries others, disk.root.at? names = some (.directory entries) →
      left.root.at? names = some (.directory others) → ∃ more, later.root.at? names = some (.directory more))
    {names found other steps : List String} (gone : steps.foldlM disk.step names = .ok found)
    (also : steps.foldlM left.step names = .ok other) :
    other = found ∧ steps.foldlM later.step names = .ok found := by
  induction steps generalizing names with
  | nil => exact ⟨Except.ok.inj (also.symm.trans gone), gone⟩
  | cons name rest ih =>
    rw [List.foldlM_cons] at gone also ⊢
    obtain ⟨next, first, gone⟩ := bind_eq_ok.mp gone
    obtain ⟨same, second, also⟩ := bind_eq_ok.mp also
    obtain ⟨entries, there⟩ := exists_directory_of_step first
    obtain ⟨others, alsoThere⟩ := exists_directory_of_step second
    obtain ⟨more, still⟩ := stay names entries others there alsoThere
    obtain rfl : same = next := Except.ok.inj (second.symm.trans (step_of_directory first alsoThere))
    obtain ⟨agree, onward⟩ := ih gone also
    exact ⟨agree, bind_eq_ok.mpr ⟨same, step_of_directory first still, onward⟩⟩

/-- Where directories stay directories, steps that can be gone can still be gone, and lead to the same
place. -/
theorem foldlM_step_of_directories {disk later : Disk}
    (stay : ∀ names entries, disk.root.at? names = some (.directory entries) →
      ∃ others, later.root.at? names = some (.directory others))
    {names found steps : List String} (gone : steps.foldlM disk.step names = .ok found) :
    steps.foldlM later.step names = .ok found :=
  (foldlM_step_of_both (fun names entries _ there _ => stay names entries there) gone gone).2

/-- The steps of a path are known when it is neither empty nor ended inside. -/
theorem route_eq_ok_iff {path : String} {gone : List String} :
    route path = .ok gone ↔ path ≠ "" ∧ '\x00' ∉ path.toList ∧
      gone = steps path ++ if path.endsWith "/" then ["."] else [] := by
  rw [route]
  by_cases isEmpty : path = ""
  · rw [if_pos (String.isEmpty_iff.mpr isEmpty)]
    exact ⟨(fun told => by cases told), fun told => absurd isEmpty told.1⟩
  · rw [if_neg (by rwa [String.isEmpty_iff])]
    by_cases ended : '\x00' ∈ path.toList
    · rw [if_pos (List.contains_iff_mem.mpr ended)]
      exact ⟨(fun told => by cases told), fun told => absurd ended told.2.1⟩
    · rw [if_neg (by rwa [List.contains_iff_mem])]
      exact ⟨fun told => ⟨isEmpty, ended, (Except.ok.inj told).symm⟩, fun told => told.2.2 ▸ rfl⟩

/-- A path leads through directories that are there to an entry that is there. -/
theorem locate_eq_ok_iff {disk : Disk} {path : String} {names : List String} {tree : FileTree} :
    disk.locate path = .ok (names, tree) ↔
      ∃ steps, route path = .ok steps ∧ steps.foldlM disk.step (disk.start path) = .ok names ∧
        disk.root.at? names = some tree := by
  rw [locate, bind_eq_ok]
  constructor
  · rintro ⟨steps, routed, rest⟩
    obtain ⟨found, gone, told⟩ := bind_eq_ok.mp rest
    cases there : disk.root.at? found with
    | none =>
      rw [there] at told
      cases told
    | some other =>
      rw [there] at told
      cases told
      exact ⟨steps, routed, gone, there⟩
  · rintro ⟨steps, routed, gone, there⟩
    exact ⟨steps, routed, bind_eq_ok.mpr ⟨names, gone, by rw [there]; rfl⟩⟩

/-- Where directories stay directories, a path still leads where it did, to what is there now. -/
theorem locate_of_directories {disk later : Disk}
    (stay : ∀ names entries, disk.root.at? names = some (.directory entries) →
      ∃ others, later.root.at? names = some (.directory others))
    (start : later.workingDirectory = disk.workingDirectory) {path : String} {names : List String}
    {tree other : FileTree} (located : disk.locate path = .ok (names, tree))
    (there : later.root.at? names = some other) : later.locate path = .ok (names, other) := by
  obtain ⟨steps, routed, gone, _⟩ := locate_eq_ok_iff.mp located
  have sameStart : later.start path = disk.start path := by rw [Disk.start, Disk.start, start]
  exact locate_eq_ok_iff.mpr ⟨steps, routed, sameStart ▸ foldlM_step_of_directories stay gone, there⟩

/-- A step that stays leads nowhere else. -/
theorem eq_of_step_here {disk : Disk} {names next : List String}
    (stays : disk.step names "." = .ok next) : names = next := by
  rw [step] at stays
  split at stays
  · cases stays
  · cases stays
  · exact Except.ok.inj stays

/-- A continued path starts where the path does. -/
theorem start_join {disk : Disk} {path : String} (shown : path ≠ "") (name : String) :
    disk.start (FilePath.join path name) = disk.start path := by
  have opens : ∀ text : String, text.startsWith "/" = true ↔ text.toList.head? = some '/' := by
    intro text
    rw [String.startsWith_string_iff]
    cases text.toList <;> simp [eq_comm]
  have same : (FilePath.join path name).toList.head? = path.toList.head? := by
    obtain ⟨rest, whole⟩ := FilePath.prefix_join path name
    have nonempty : path.toList ≠ [] := by simpa using shown
    rw [← whole, List.head?_append, List.head?_eq_some_head nonempty, Option.some_or]
  have agree : (FilePath.join path name).startsWith "/" = path.startsWith "/" := by
    rw [Bool.eq_iff_iff, opens, opens, same]
  rw [start, start, agree]

/-- The path of a directory continued by a name leads to where the entry of the name stands, or would stand. -/
theorem route_join {disk : Disk} {path name : String} {names : List String}
    {entries : List (String × FileTree)} (located : disk.locate path = .ok (names, .directory entries))
    (isName : FilePath.IsName name) :
    ∃ steps, route (FilePath.join path name) = .ok steps ∧
      steps.foldlM disk.step (disk.start (FilePath.join path name)) = .ok (names ++ [name]) := by
  obtain ⟨routed, given, gone, there⟩ := locate_eq_ok_iff.mp located
  obtain ⟨shown, free, rfl⟩ := route_eq_ok_iff.mp given
  -- A slash at the end of the path makes no step.
  have reached : (steps path).foldlM disk.step (disk.start path) = .ok names := by
    rw [List.foldlM_append] at gone
    obtain ⟨middle, first, last⟩ := bind_eq_ok.mp gone
    rw [first]
    split at last
    · rw [List.foldlM_cons] at last
      obtain ⟨next, stays, last⟩ := bind_eq_ok.mp last
      rw [eq_of_step_here stays]
      exact last
    · exact last
  have next : disk.step names name = .ok (names ++ [name]) := by
    have short : ¬longestName < name.utf8ByteSize := Nat.not_lt.mpr isName.short
    simp [step, there, isName.notHere, isName.notAbove, short]
  refine ⟨steps path ++ [name], route_eq_ok_iff.mpr ⟨FilePath.join_ne_empty shown name, ?_, ?_⟩, ?_⟩
  · exact fun ended => free (FilePath.nul_mem_join isName path ended)
  · rw [FilePath.endsWith_slash_join isName, FilePath.steps_join isName.nonempty isName.noSlash]
    exact (List.append_nil _).symm
  · rw [start_join shown, List.foldlM_append]
    refine bind_eq_ok.mpr ⟨names, reached, ?_⟩
    rw [List.foldlM_cons]
    exact bind_eq_ok.mpr ⟨_, next, rfl⟩

/-- Every entry of a directory stands where the path of the directory continued by its name leads. -/
theorem locate_join {disk : Disk} {path name : String} {names : List String} {tree inner : FileTree}
    (located : disk.locate path = .ok (names, tree)) (isName : FilePath.IsName name)
    (entry : tree.entry? name = some inner) :
    disk.locate (FilePath.join path name) = .ok (names ++ [name], inner) := by
  have directory : ∃ entries, tree = .directory entries := by
    cases tree with
    | file content => cases entry
    | directory entries => exact ⟨entries, rfl⟩
  obtain ⟨entries, rfl⟩ := directory
  obtain ⟨steps, routed, gone⟩ := route_join located isName
  obtain ⟨-, -, -, there⟩ := locate_eq_ok_iff.mp located
  refine locate_eq_ok_iff.mpr ⟨steps, routed, gone, ?_⟩
  rw [FileTree.at?_concat, there]
  exact entry

/-- A path that leads to a directory is located as one. -/
theorem isDirectory_iff {disk : Disk} {path : String} :
    disk.isDirectory path = true ↔ ∃ names entries, disk.locate path = .ok (names, .directory entries) := by
  rw [isDirectory, find]
  cases disk.locate path with
  | error problem => simp [Except.map]
  | ok found =>
    obtain ⟨names, tree⟩ := found
    cases tree <;> simp [Except.map]

/-- What a file holds is what stands where its path leads. -/
theorem read_eq_ok_iff {disk : Disk} {path : String} {content : ByteArray} :
    disk.read path = .ok content ↔ ∃ names, disk.locate path = .ok (names, .file content) := by
  rw [read, find]
  cases disk.locate path with
  | error problem => simp [Except.map, bind, Except.bind]
  | ok found =>
    obtain ⟨names, tree⟩ := found
    cases tree <;> simp [Except.map, bind, Except.bind, pure, Except.pure, throw, throwThe,
      MonadExceptOf.throw]

/-- Files that are kept can be read as before. -/
theorem Keeps.read {disk later : Disk} (keeps : disk.Keeps later) {path : String}
    {content : ByteArray} (holds : disk.read path = .ok content) : later.read path = .ok content := by
  obtain ⟨names, located⟩ := read_eq_ok_iff.mp holds
  obtain ⟨_, _, _, there⟩ := locate_eq_ok_iff.mp located
  exact read_eq_ok_iff.mpr ⟨names, locate_of_directories keeps.tree.directories keeps.start
    located (keeps.tree.files names content there)⟩

/-- A step to where nothing is leads from a directory to a name that it has no entry of. -/
theorem step_of_free {disk : Disk} {names next : List String} {name : String}
    (gone : disk.step names name = .ok next) (free : disk.root.at? next = none) :
    ∃ entries, disk.root.at? names = some (.directory entries) ∧ next = names ++ [name] := by
  rw [step] at gone
  cases there : disk.root.at? names with
  | none => simp [there] at gone
  | some tree =>
    cases tree with
    | file content => simp [there] at gone
    | directory entries =>
      refine ⟨entries, rfl, ?_⟩
      simp only [there] at gone
      split at gone
      · cases gone
        rw [there] at free
        cases free
      · split at gone
        · -- The directory above is there, so the step cannot lead upward.
          obtain rfl : names.dropLast = next := Except.ok.inj gone
          rcases List.eq_nil_or_concat names with rfl | ⟨front, last, rfl⟩
          · rw [List.dropLast_nil, there] at free
            cases free
          · rw [List.concat_eq_append, List.dropLast_concat] at free
            rw [List.concat_eq_append, FileTree.at?_append, free] at there
            cases there
        · split at gone
          · cases gone
          · exact (Except.ok.inj gone).symm

/-- Making directories leaves everything else in place. -/
theorem keeps_makeDirectory {disk later : Disk} {names steps : List String}
    (made : disk.makeDirectory names steps = .ok later) : disk.Keeps later := by
  -- Each step keeps what the ones before have made.
  induction steps generalizing disk names with
  | nil =>
    cases made
    exact ⟨.refl _, rfl⟩
  | cons name rest ih =>
    obtain ⟨next, gone, made⟩ := bind_eq_ok.mp made
    cases there : disk.root.at? next with
    | none =>
      rw [there] at made
      obtain ⟨entries, above, rfl⟩ := step_of_free gone there
      have kept := FileTree.keeps_put above there .empty
      obtain ⟨tree, start⟩ := ih made
      exact ⟨kept.trans tree, start⟩
    | some tree =>
      cases tree with
      | file content =>
        rw [there] at made
        cases made
      | directory entries =>
        rw [there] at made
        exact ih made

/-- Making a directory and those above it leaves everything else in place. -/
theorem keeps_createDirectories {disk later : Disk} {path : String}
    (made : disk.createDirectories path = .ok later) : disk.Keeps later := by
  rw [createDirectories] at made
  split at made
  · cases made
  · exact keeps_makeDirectory made

end Disk

end SourceOutline
