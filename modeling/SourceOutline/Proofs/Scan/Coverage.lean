import SourceOutline.Proofs.Scan.Scripts

/-! What a search lists: the files that a walk reaches, as far as they are wanted. -/

namespace SourceOutline

namespace Language

/-- The extensions of the files of a language, in small letters. -/
def extensions : Language → List String
  | .python => ["py", "pyw"]
  | .javascript => ["js", "jsx", "mjs", "cjs"]
  | .typescript => ["ts", "tsx", "mts", "cts"]

/-- An extension belongs to a language when it is one of its own in small letters. -/
theorem ofExtension_eq_ok_iff {extension : String} {language : Language} :
    ofExtension extension = .ok language ↔ Text.lowercase extension ∈ language.extensions := by
  -- No extension belongs to two languages.
  unfold ofExtension
  split <;> cases language <;> simp_all [extensions]

/-- Only the extension tells the language of a file. -/
theorem ofPath_eq_ok_iff {path : String} {language : Language} :
    ofPath path = .ok language ↔
      ∃ extension, FilePath.extension path = some extension ∧ Text.lowercase extension ∈ language.extensions := by
  rw [ofPath]
  cases FilePath.extension path with
  | none => simp
  | some extension => simp [ofExtension_eq_ok_iff]

end Language

namespace FileTree

/-- Names lead from an entry to one below it, none of which is hidden or passed over by the rules of the
directories above. -/
inductive Reaches : List Ignore.Level → List String → FileTree → List String → FileTree → Prop where
  /-- Every entry is reached from itself. -/
  | here (levels : List Ignore.Level) (names : List String) (tree : FileTree) : Reaches levels names tree [] tree
  /-- What is reached from an entry of a directory is reached from the directory. -/
  | through {levels : List Ignore.Level} {names more : List String} {entries : List (String × FileTree)}
    {name : String} {inner found : FileTree} (member : (name, inner) ∈ entries)
    (kept : Ignore.isIgnored (Ignore.Level.ofDirectory names (.directory entries) :: levels) (names ++ [name])
      inner.isDirectory = false)
    (further : Reaches (Ignore.Level.ofDirectory names (.directory entries) :: levels) (names ++ [name]) inner
      more found) :
    Reaches levels names (.directory entries) (name :: more) found

/-- The names that lead through a proper tree can be names. -/
theorem Reaches.isName {levels : List Ignore.Level} {names below : List String} {tree found : FileTree}
    (reaches : Reaches levels names tree below found) (proper : tree.IsProper) :
    ∀ name ∈ below, FilePath.IsName name := by
  induction reaches with
  | here => simp
  | through member kept further ih =>
    rintro name isStep
    rcases List.mem_cons.mp isStep with rfl | later
    · exact proper.named _ member
    · exact ih (proper.inner _ member) name later

end FileTree

namespace FilePath

end FilePath

namespace Scanner

variable {scanner : Scanner} {disk : Disk}

end Scanner

end SourceOutline
