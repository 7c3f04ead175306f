import SourceOutline.Proofs.DocComment.Printing
import SourceOutline.Proofs.Outline.Parameters

/-! The delimiters of a block say nothing, however many asterisks open it. -/

namespace SourceOutline.DocComment

open Text

/-- A comment block that opens with a single asterisk. -/
def remarking (body : List Char) : List Char :=
  ['/', '*'] ++ body ++ ['*', '/']

/-- A line says nothing: it is blank, or a lone asterisk stands on it. -/
def IsSilent (line : List Char) : Prop := trim line = [] ∨ trim line = ['*']

instance (line : List Char) : Decidable (IsSilent line) := inferInstanceAs (Decidable (_ ∨ _))

/-- Nothing is left of a text by trimming when all of it is blank. -/
theorem blank_of_trim_eq_nil {cs : List Char} (nothing : trim cs = []) :
    ∀ c ∈ cs, isBlank c = true := by
  have front : trimStart cs = [] := by
    -- What is left in front starts with a character that would stop the trimming of the end, too.
    cases left : trimStart cs with
    | nil => rfl
    | cons c rest =>
      have firm : isBlank c = false := by
        have stops := List.head?_dropWhile_not isBlank cs
        rw [← trimStart, left] at stops
        simpa using stops
      have kept := trim_cons firm rest
      rw [trim, trimStart, List.dropWhile_cons_of_neg (by simp [firm]), ← left] at kept
      rw [trim, kept] at nothing
      cases nothing
  exact List.dropWhile_eq_nil_iff.mp front

/-- The lines without text are the blank ones and those with a lone asterisk. -/
theorem lineText_eq_nil_iff {line : List Char} : lineText line = [] ↔ IsSilent line := by
  unfold lineText IsSilent
  split
  · rename_i rest marked
    rw [marked]
    constructor
    · intro nothing
      right
      -- A blank behind the asterisk would have been trimmed from the line.
      cases last : rest.getLast? with
      | none => rw [List.getLast?_eq_none_iff.mp last]
      | some c =>
        have ends : c ∈ (trim line).getLast? := by simp [marked, List.getLast?_cons, last]
        have firm := isBlank_getLast?_trim line c ends
        rw [blank_of_trim_eq_nil nothing c (List.mem_of_getLast? last)] at firm
        cases firm
    · rintro (nothing | alone)
      · cases nothing
      · cases alone
        rfl
  · rename_i unmarked
    constructor
    · exact .inl
    · rintro (nothing | alone)
      · exact nothing
      · exact absurd alone (unmarked [])

/-- A line contributes nothing exactly when it says nothing. -/
theorem BlockLine.ofLine_eq_none_iff {line : List Char} : ofLine line = none ↔ IsSilent line := by
  rw [ofLine_eq, ofText, ← lineText_eq_nil_iff]
  split
  · rename_i name rest opens
    constructor
    · intro nothing
      cases nothing
    · intro nothing
      rw [nothing] at opens
      cases opens
  · rw [ite_eq_left_iff, List.isEmpty_iff]
    constructor
    · intro nothing
      by_contra some_text
      cases nothing some_text
    · intro nothing some_text
      exact absurd nothing some_text

/-- What a block says is empty exactly when none of its lines contributes anything. -/
theorem isEmpty_ofBlock_iff {block : List Char} :
    (ofBlock block).isEmpty = true ↔ ∀ line ∈ splitLines (blockBody block), IsSilent line := by
  have contributions : (textLines (blockBody block)).filterMap BlockLine.ofLine = [] ↔
      ∀ line ∈ splitLines (blockBody block), IsSilent line := by
    rw [filterMap_textLines, List.filterMap_eq_nil_iff]
    exact forall₂_congr fun line _ => BlockLine.ofLine_eq_none_iff
  rw [← contributions, isEmpty, ofBlock]
  cases (textLines (blockBody block)).filterMap BlockLine.ofLine with
  | nil => simp [leadingTexts, tagTexts, NameMap.ofList, NameMap.empty]
  | cons line later =>
    cases line with
    | text text => simp [leadingTexts]
    | tag name rest =>
      -- The first tag at least has a text, maybe an empty one.
      have named : String.ofList name ∈
          (NameMap.ofList (tagTexts (.tag name rest :: later))).names := by
        rw [NameMap.mem_names_ofList]
        simp [tagTexts]
      have some_entry : (NameMap.ofList (tagTexts (.tag name rest :: later))).entries ≠ [] := by
        intro nothing
        simp [NameMap.names, nothing] at named
      simp [some_entry]

/-- The delimiters of a comment block are all that is taken off, unless nothing stands between them. -/
theorem blockBody_remarking {body : List Char} (unmarked : body.head? ≠ some '*')
    (some_text : body ≠ []) : blockBody (remarking body) = body := by
  have trimmed : trim (remarking body) = remarking body := by
    have whole : remarking body = '/' :: (['*'] ++ body ++ ['*']) ++ ['/'] := by simp [remarking]
    rw [whole, trim_slashes]
  have single : ['/', '*', '*'].isPrefixOf? (remarking body) = none := by
    refine Option.eq_none_iff_forall_ne_some.mpr fun rest opens => ?_
    have whole := List.isPrefixOf?_eq_some_iff_append_eq.mp opens
    cases body with
    | nil => exact some_text rfl
    | cons first later =>
      -- The third character of the block would have to be an asterisk.
      have asterisk : '*' = first ∧ rest = later ++ ['*', '/'] := by simpa [remarking] using whole
      exact unmarked (congrArg some asterisk.1.symm)
  have opened : ['/', '*'].isPrefixOf? (remarking body) = some (body ++ ['*', '/']) :=
    List.isPrefixOf?_eq_some_iff_append_eq.mpr (List.append_assoc _ _ _).symm
  simp only [blockBody, trimmed, single, dropOpening, opened, Option.getD_some, dropClosing]
  rw [List.isSuffixOf?_eq_some_iff_append_eq.mpr rfl, Option.getD_some]

/-- The two delimiters of a comment block with nothing between them share their asterisk: it is taken
for one of the opening, and the slash that is left for the text. -/
theorem blockBody_remarking_nil : blockBody (remarking []) = ['/'] := by decide

/-- Whether one asterisk opens a block or two makes no difference to what it says, unless nothing stands
between the delimiters; and a block says nothing exactly when each line of its text is blank or a lone
asterisk, where one asterisk and nothing between the delimiters says something. -/
theorem ofBlock_remarking_eq_iff {body : List Char} (unmarked : body.head? ≠ some '*') :
    (ofBlock (remarking body) = ofBlock (documenting body) ↔ body ≠ []) ∧
      ((ofBlock (documenting body)).isEmpty = true ↔ ∀ line ∈ splitLines body, IsSilent line) ∧
      ((ofBlock (remarking body)).isEmpty = true ↔
        body ≠ [] ∧ ∀ line ∈ splitLines body, IsSilent line) := by
  have documented : (ofBlock (documenting body)).isEmpty = true ↔
      ∀ line ∈ splitLines body, IsSilent line := by
    rw [isEmpty_ofBlock_iff, blockBody_documenting]
  by_cases nothing : body = []
  · subst nothing
    -- The slash is a line of text, where the other block has a blank line only.
    have slash : ¬(ofBlock (remarking [])).isEmpty = true := by
      rw [isEmpty_ofBlock_iff, blockBody_remarking_nil]
      decide
    refine ⟨iff_of_false (fun same => slash ?_) (by simp), documented, ?_⟩
    · rw [same, documented]
      decide
    · exact iff_of_false slash (by simp)
  · have same : ofBlock (remarking body) = ofBlock (documenting body) := by
      simp only [ofBlock, blockBody_remarking unmarked nothing, blockBody_documenting]
    refine ⟨iff_of_true same nothing, documented, ?_⟩
    rw [same, documented]
    exact (and_iff_right nothing).symm

/-- A block with lone asterisks on its lines says nothing with one asterisk in front or with two, and
with nothing at all between the delimiters it does with one. -/
theorem ofBlock_remarking_eq_iff_lone :
    ofBlock "/*\n * \r\n*/".toList = ofBlock "/**\n * \r\n*/".toList ∧
      (ofBlock "/*\n * \r\n*/".toList).isEmpty = true ∧
      ofBlock "/**/".toList ≠ ofBlock "/***/".toList := by
  have lone := @ofBlock_remarking_eq_iff "\n * \r\n".toList (by decide)
  have bare := @ofBlock_remarking_eq_iff [] (by decide)
  exact ⟨lone.1.mpr (by decide), lone.2.2.mpr (by decide), fun same => bare.1.mp same rfl⟩

end SourceOutline.DocComment
