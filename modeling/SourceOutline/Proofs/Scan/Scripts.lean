import SourceOutline.Proofs.FileTree.Resolution
import SourceOutline.Proofs.Scan.Order

/-! Disks without scripts, and what a search finds on them. -/

namespace SourceOutline

namespace FileTree

/-- An entry is no script: it is a directory, or its name does not have the extension of one. -/
def isNoScript (name : String) (tree : FileTree) : Bool :=
  tree.isDirectory || !FilePath.isScript name

mutual

/-- A tree without its scripts. -/
def withoutScripts : FileTree → FileTree
  | .file content => .file content
  | .directory entries => .directory (entriesWithoutScripts entries)

/-- The entries of a directory without its scripts. -/
def entriesWithoutScripts : List (String × FileTree) → List (String × FileTree)
  | [] => []
  | entry :: rest =>
    if isNoScript entry.1 entry.2 then
      (entry.1, entry.2.withoutScripts) :: entriesWithoutScripts rest
    else entriesWithoutScripts rest

end

/-- Directories without scripts are directories. -/
@[simp] theorem isDirectory_withoutScripts (tree : FileTree) :
    tree.withoutScripts.isDirectory = tree.isDirectory := by
  cases tree <;> simp [withoutScripts, isDirectory]

/-- The entry of a name that no script has is there without its scripts. -/
theorem entry?_withoutScripts (tree : FileTree) {name : String} (plain : FilePath.isScript name = false) :
    tree.withoutScripts.entry? name = (tree.entry? name).map withoutScripts := by
  cases tree with
  | file content => simp [withoutScripts, entry?, entries]
  | directory all =>
    simp only [withoutScripts, entry?, entries]
    induction all with
    | nil => simp [entriesWithoutScripts]
    | cons entry rest ih =>
      rw [entriesWithoutScripts]
      by_cases same : entry.1 = name
      · have kept : isNoScript entry.1 entry.2 = true := by simp [isNoScript, same, plain]
        rw [if_pos kept]
        simp [same]
      · split <;> simp [same, ih]

/-- A directory that stands under a name is there without its scripts. -/
theorem entry?_directory_withoutScripts {tree : FileTree} {name : String}
    {inner : List (String × FileTree)} (found : tree.entry? name = some (.directory inner)) :
    tree.withoutScripts.entry? name = some (FileTree.directory inner).withoutScripts := by
  cases tree with
  | file content => cases found
  | directory all =>
    -- A directory is kept whatever its name, and files in front of it have other names.
    simp only [withoutScripts, entry?, entries] at found ⊢
    induction all with
    | nil => cases found
    | cons entry rest ih =>
      rw [entriesWithoutScripts]
      by_cases same : entry.1 = name
      · have isInner : entry.2 = .directory inner := by simpa [same] using found
        simp [isNoScript, isInner, same, isDirectory, withoutScripts]
      · have later : (rest.find? fun entry => entry.1 == name).map Prod.snd = some (.directory inner) := by
          simpa [same] using found
        split <;> simp [same, ih later]

/-- Where names lead to a directory, they lead to it without its scripts. -/
theorem at?_directory_withoutScripts {tree : FileTree} {names : List String}
    {inner : List (String × FileTree)} (found : tree.at? names = some (.directory inner)) :
    tree.withoutScripts.at? names = some (FileTree.directory inner).withoutScripts := by
  induction names generalizing tree with
  | nil =>
    obtain rfl : tree = .directory inner := by simpa [at?] using found
    rfl
  | cons name rest ih =>
    obtain ⟨next, isNext, found⟩ := Option.bind_eq_some_iff.mp found
    have directory : ∃ entries, next = .directory entries := by
      cases next with
      | directory entries => exact ⟨entries, rfl⟩
      | file content =>
        cases rest with
        | nil => cases found
        | cons => cases found
    obtain ⟨entries, rfl⟩ := directory
    rw [at?, entry?_directory_withoutScripts isNext]
    exact ih found

/-- Where names lead that no script has, they lead to the same without its scripts. -/
theorem at?_withoutScripts {names : List String} (plain : ∀ name ∈ names, FilePath.isScript name = false)
    (tree : FileTree) : tree.withoutScripts.at? names = (tree.at? names).map withoutScripts := by
  induction names generalizing tree with
  | nil => rfl
  | cons name rest ih =>
    rw [at?, at?, entry?_withoutScripts tree (plain name (by simp))]
    cases tree.entry? name with
    | none => rfl
    | some inner => exact ih (fun other member => plain other (List.mem_cons_of_mem _ member)) inner

/-- The rules of a file that is no script do not depend on scripts. -/
theorem rulesAt_withoutScripts (tree : FileTree) {names : List String}
    (plain : ∀ name ∈ names, FilePath.isScript name = false) :
    Ignore.Level.rulesAt tree.withoutScripts names = Ignore.Level.rulesAt tree names := by
  rw [Ignore.Level.rulesAt, Ignore.Level.rulesAt, at?_withoutScripts plain]
  cases tree.at? names with
  | none => rfl
  | some inner => cases inner <;> simp [withoutScripts]

/-- The rules of a directory do not depend on scripts. -/
theorem ofDirectory_withoutScripts (names : List String) (tree : FileTree) :
    Ignore.Level.ofDirectory names tree.withoutScripts = Ignore.Level.ofDirectory names tree := by
  rw [Ignore.Level.ofDirectory, Ignore.Level.ofDirectory, rulesAt_withoutScripts tree (by decide +kernel),
    rulesAt_withoutScripts tree (by decide +kernel), rulesAt_withoutScripts tree (by decide +kernel),
    entry?_withoutScripts tree (by decide +kernel), Option.isSome_map]

/-- What names lead through is a directory. -/
theorem exists_directory_above {tree inner : FileTree} {names more : List String}
    (there : tree.at? (names ++ more) = some inner) (further : more ≠ []) :
    ∃ entries, tree.at? names = some (.directory entries) := by
  rw [at?_append] at there
  obtain ⟨above, found, there⟩ := Option.bind_eq_some_iff.mp there
  cases above with
  | directory entries => exact ⟨entries, found⟩
  | file content =>
    cases more with
    | nil => exact absurd rfl further
    | cons name rest => cases there

/-- The rules above an entry do not depend on scripts. -/
theorem levelsAbove_withoutScripts {tree inner : FileTree} {names : List String}
    (there : tree.at? names = some inner) :
    tree.withoutScripts.levelsAbove names = tree.levelsAbove names := by
  -- All that is above an entry is directories, which stay.
  refine List.map_congr_left fun count member => ?_
  have shorter : count < names.length := by simpa using member
  rw [← List.take_append_drop count names] at there
  obtain ⟨entries, above⟩ := exists_directory_above there (by simpa using shorter)
  rw [at?_directory_withoutScripts above, above]
  exact ofDirectory_withoutScripts _ _

/-- Whether an entry is visited does not depend on the scripts in it. -/
theorem isVisited_withoutScripts (levels : List Ignore.Level) (names : List String) (name : String)
    (tree : FileTree) : isVisited levels names name tree.withoutScripts = isVisited levels names name tree := by
  rw [isVisited, isVisited, isDirectory_withoutScripts]

mutual

/-- A walk without scripts meets the files that a walk meets, except for scripts. -/
theorem walk_withoutScripts (levels : List Ignore.Level) (path : String) (names : List String) :
    ∀ tree : FileTree, tree.IsProper → tree.isDirectory = true ∨ FilePath.isScript path = false →
      tree.withoutScripts.walk levels path names =
        (tree.walk levels path names).filter fun file => !FilePath.isScript file.path
  | .file content, _, shown => by
    have plain : FilePath.isScript path = false := by simpa [isDirectory] using shown
    simp [withoutScripts, walk, plain]
  | .directory entries, proper, _ => by
    have sameRules := ofDirectory_withoutScripts names (.directory entries)
    rw [withoutScripts] at sameRules ⊢
    rw [walk, walk, sameRules]
    exact walkEntries_withoutScripts _ path names entries proper.named proper.inner

/-- A walk through entries without scripts meets the files that a walk meets, except for scripts. -/
theorem walkEntries_withoutScripts (levels : List Ignore.Level) (path : String) (names : List String) :
    ∀ entries : List (String × FileTree), (∀ entry ∈ entries, FilePath.IsName entry.1) →
      (∀ entry ∈ entries, entry.2.IsProper) →
        walkEntries levels path names (entriesWithoutScripts entries) =
          (walkEntries levels path names entries).filter fun file => !FilePath.isScript file.path
  | [], _, _ => by simp [entriesWithoutScripts, walkEntries]
  | (name, tree) :: rest, named, inner => by
    have later := walkEntries_withoutScripts levels path names rest
      (fun other member => named other (List.mem_cons_of_mem _ member))
      (fun other member => inner other (List.mem_cons_of_mem _ member))
    have script := FilePath.isScript_join (named _ List.mem_cons_self) path
    rw [entriesWithoutScripts, walkEntries, List.filter_append, ← later]
    by_cases kept : isNoScript name tree = true
    · have shown : tree.isDirectory = true ∨ FilePath.isScript (FilePath.join path name) = false := by
        simpa [script, isNoScript] using kept
      have met := walk_withoutScripts levels (FilePath.join path name) (names ++ [name]) tree
        (inner _ List.mem_cons_self) shown
      rw [if_pos kept, walkEntries, isVisited_withoutScripts]
      split
      · rw [met]
      · rfl
    · -- The entry is a script, which alone is met in it.
      rw [if_neg kept]
      cases tree with
      | directory entries => exact absurd rfl kept
      | file content =>
        have isScript : FilePath.isScript name = true := by simpa [isNoScript, isDirectory] using kept
        split <;> simp [walk, script, isScript]

end

end FileTree

namespace Disk

/-- A disk without its scripts. -/
def withoutScripts (disk : Disk) : Disk := { disk with root := disk.root.withoutScripts }

/-- A path that leads to a directory leads to it without its scripts. -/
theorem locate_withoutScripts {disk : Disk} {path : String} {names : List String}
    {entries : List (String × FileTree)} (located : disk.locate path = .ok (names, .directory entries)) :
    disk.withoutScripts.locate path = .ok (names, (FileTree.directory entries).withoutScripts) := by
  have stay : ∀ names entries, disk.root.at? names = some (.directory entries) →
      ∃ others, disk.withoutScripts.root.at? names = some (.directory others) := by
    intro names entries there
    have without := FileTree.at?_directory_withoutScripts there
    rw [FileTree.withoutScripts] at without
    exact ⟨_, without⟩
  obtain ⟨_, _, _, there⟩ := locate_eq_ok_iff.mp located
  exact locate_of_directories stay rfl located (FileTree.at?_directory_withoutScripts there)

/-- Directories stay directories without their scripts. -/
theorem isDirectory_withoutScripts {disk : Disk} {path : String} (directory : disk.isDirectory path = true) :
    disk.withoutScripts.isDirectory path = true := by
  obtain ⟨names, entries, located⟩ := isDirectory_iff.mp directory
  have stillLocated := locate_withoutScripts located
  rw [FileTree.withoutScripts] at stillLocated
  exact isDirectory_iff.mpr ⟨names, _, stillLocated⟩

mutual

/-- The files met on a walk that are no scripts can be read, with the scripts or without them. -/
theorem read_of_mem_walk {disk : Disk} (levels : List Ignore.Level) (path : String) (names : List String) :
    ∀ tree : FileTree, tree.IsProper → disk.locate path = .ok (names, tree) →
      disk.withoutScripts.locate path = .ok (names, tree.withoutScripts) →
        ∀ file ∈ tree.walk levels path names, FilePath.isScript file.path = false →
          ∃ content, disk.read file.path = .ok content ∧ disk.withoutScripts.read file.path = .ok content
  | .file content, _, located, without, file, member, _ => by
    rw [FileTree.withoutScripts] at without
    obtain rfl : file = ⟨path, content.size⟩ := by simpa [FileTree.walk] using member
    exact ⟨content, read_eq_ok_iff.mpr ⟨names, located⟩, read_eq_ok_iff.mpr ⟨names, without⟩⟩
  | .directory entries, proper, located, without, file, member, plain => by
    rw [FileTree.walk] at member
    exact read_of_mem_walkEntries _ path names (.directory entries) located without entries proper.named
      proper.inner (fun entry => FileTree.entry?_of_mem proper.distinct) file member plain

/-- The files met on a walk through some entries of a directory that are no scripts can be read, with the
scripts or without them. -/
theorem read_of_mem_walkEntries {disk : Disk} (levels : List Ignore.Level) (path : String)
    (names : List String) (whole : FileTree) (located : disk.locate path = .ok (names, whole))
    (without : disk.withoutScripts.locate path = .ok (names, whole.withoutScripts)) :
    ∀ entries : List (String × FileTree), (∀ entry ∈ entries, FilePath.IsName entry.1) →
      (∀ entry ∈ entries, entry.2.IsProper) →
        (∀ entry ∈ entries, whole.entry? entry.1 = some entry.2) →
          ∀ file ∈ FileTree.walkEntries levels path names entries, FilePath.isScript file.path = false →
            ∃ content, disk.read file.path = .ok content ∧
              disk.withoutScripts.read file.path = .ok content
  | [], _, _, _, file, member, _ => by simp [FileTree.walkEntries] at member
  | (name, tree) :: rest, named, inner, found, file, member, plain => by
    rw [FileTree.walkEntries, List.mem_append] at member
    rcases member with here | later
    · split at here
      · have isName := named _ List.mem_cons_self
        have entry : whole.entry? name = some tree := found _ List.mem_cons_self
        have proper : tree.IsProper := inner _ List.mem_cons_self
        have kept : whole.withoutScripts.entry? name = some tree.withoutScripts := by
          cases tree with
          | directory entries => exact FileTree.entry?_directory_withoutScripts entry
          | file content =>
            -- The only file met in a file is the file itself.
            obtain rfl : file = ⟨FilePath.join path name, content.size⟩ := by
              simpa [FileTree.walk] using here
            rw [FilePath.isScript_join isName] at plain
            rw [FileTree.entry?_withoutScripts whole plain, entry, Option.map_some]
        exact read_of_mem_walk levels (FilePath.join path name) (names ++ [name]) tree proper
          (locate_join located isName entry) (locate_join without isName kept) file here plain
      · cases here
    · exact read_of_mem_walkEntries levels path names whole located without rest
        (fun other member => named other (List.mem_cons_of_mem _ member))
        (fun other member => inner other (List.mem_cons_of_mem _ member))
        (fun other member => found other (List.mem_cons_of_mem _ member)) file later plain

end

end Disk

namespace Scanner

variable {scanner : Scanner} {disk : Disk}

/-- Paths of one place in the order of paths are scripts together. -/
theorem isScript_of_key {a b : String} (same : FilePath.key a = FilePath.key b) :
    FilePath.isScript a = FilePath.isScript b :=
  FilePath.isScript_of_extension (FilePath.extension_of_key same)

/-- Without scripts a search finds the sources that it finds with them, except for scripts. -/
theorem scan_withoutScripts (proper : disk.root.IsProper) (directory : disk.isDirectory scanner.root = true) :
    scanner.scan disk.withoutScripts =
      (scanner.scan disk).filter fun path => !FilePath.isScript path := by
  obtain ⟨names, entries, located⟩ := Disk.isDirectory_iff.mp directory
  obtain ⟨_, _, _, there⟩ := Disk.locate_eq_ok_iff.mp located
  -- Leaving out scripts commutes with every stage: the walk, the choice of files, and the order.
  have walked : scanner.walk disk.withoutScripts =
      (scanner.walk disk).filter fun file => !FilePath.isScript file.path := by
    rw [walk, walk, located, Disk.locate_withoutScripts located]
    dsimp only
    rw [Disk.withoutScripts, FileTree.levelsAbove_withoutScripts there]
    exact FileTree.walk_withoutScripts _ _ _ _ (proper.at? there) (.inl rfl)
  rw [scan, scan, walked, ← FilePath.sorted_filter fun a b same => by rw [isScript_of_key same],
    List.filter_filter, List.filter_map, List.filter_filter]
  simp only [Function.comp_apply, Bool.and_comm]

/-- The sources found that are no scripts can be read, with the scripts or without them. -/
theorem read_of_mem_scan (proper : disk.root.IsProper) (directory : disk.isDirectory scanner.root = true)
    {path : String} (member : path ∈ scanner.scan disk) (plain : FilePath.isScript path = false) :
    ∃ content, disk.read path = .ok content ∧ disk.withoutScripts.read path = .ok content := by
  obtain ⟨names, entries, located⟩ := Disk.isDirectory_iff.mp directory
  obtain ⟨_, _, _, there⟩ := Disk.locate_eq_ok_iff.mp located
  obtain ⟨file, met, rfl⟩ := List.mem_map.mp (FilePath.mem_of_mem_sorted member)
  have walked := List.mem_of_mem_filter met
  rw [walk, located] at walked
  exact Disk.read_of_mem_walk _ _ _ _ (proper.at? there) located (Disk.locate_withoutScripts located) file
    walked plain

/-- What a search finds has a language. -/
theorem exists_language_of_mem_scan {path : String} (member : path ∈ scanner.scan disk) :
    ∃ language, Language.ofPath path = .ok language := by
  obtain ⟨file, met, rfl⟩ := List.mem_map.mp (FilePath.mem_of_mem_sorted member)
  have wanted := List.of_mem_filter met
  rw [wants] at wanted
  cases known : Language.ofPath file.path with
  | ok language => exact ⟨language, rfl⟩
  | error name => simp [known] at wanted

end Scanner

end SourceOutline
