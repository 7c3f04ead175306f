import Mathlib.Data.List.Basic
import SourceOutline.DocComment.Block
import SourceOutline.Proofs.Text.Lines
import SourceOutline.Proofs.Text.Search

/-! A description and tags that are printed into a comment block, in any layout, are read back. -/

namespace SourceOutline.DocComment

open Text

/-- Blanks within a line of a block. -/
def IsMargin (cs : List Char) : Prop := ∀ c ∈ cs, isBlank c = true ∧ c ≠ '\n'

-- The instance is named since one that tries every character would apply as well.
instance (cs : List Char) : Decidable (IsMargin cs) := List.decidableBAll _ cs

/-- Text that can stand on a line of its own: without blanks at its ends and without line feed. -/
structure IsLineText (text : List Char) : Prop where
  /-- No blank stands at either end. -/
  trimmed : trim text = text
  /-- It is a single line. -/
  single : '\n' ∉ text

instance (text : List Char) : Decidable (IsLineText text) :=
  decidable_of_iff (trim text = text ∧ '\n' ∉ text)
    ⟨fun both => ⟨both.1, both.2⟩, fun line => ⟨line.trimmed, line.single⟩⟩

/-- A name of a tag may start with the character. -/
def OpensName (c : Char) : Prop := c.isAlpha = true ∨ c = '_'

instance (c : Char) : Decidable (OpensName c) := inferInstanceAs (Decidable (_ ∨ _))

/-- A text starts like a tag, with the first character of a name behind the at sign. -/
def OpensTag : List Char → Prop
  | '@' :: first :: _ => OpensName first
  | _ => False

instance : (text : List Char) → Decidable (OpensTag text) := fun text => by
  unfold OpensTag
  split <;> infer_instance

/-- Text that belongs to what stands above it. -/
structure IsFreeText (text : List Char) : Prop extends IsLineText text where
  /-- There is some text. -/
  some_char : text ≠ []
  /-- It opens no tag. -/
  free : ¬OpensTag text

instance (text : List Char) : Decidable (IsFreeText text) :=
  decidable_of_iff (IsLineText text ∧ text ≠ [] ∧ ¬OpensTag text)
    ⟨fun all => ⟨all.1, all.2.1, all.2.2⟩, fun text => ⟨text.toIsLineText, text.some_char, text.free⟩⟩

/-- A tag name: a letter or an underscore, then characters of words, dots and hyphens. -/
def IsTagName : List Char → Prop
  | [] => False
  | first :: rest => OpensName first ∧ ∀ c ∈ rest, isTagChar c = true

instance : (name : List Char) → Decidable (IsTagName name)
  | [] => inferInstanceAs (Decidable False)
  | _ :: rest => @instDecidableAnd _ _ inferInstance (List.decidableBAll _ rest)

/-- A tag together with the text that belongs to it. -/
structure TagBlock where
  /-- The name. -/
  name : List Char
  /-- The blanks between the name and the text behind it. -/
  gap : List Char
  /-- The text on the line of the name, maybe none. -/
  rest : List Char
  /-- The lines below it. -/
  below : List (List Char)

namespace TagBlock

/-- The line that opens the tag. -/
def heading (tag : TagBlock) : List Char := '@' :: (tag.name ++ tag.gap ++ tag.rest)

/-- The text of the tag: what stands behind its name and on the lines below. -/
def text (tag : TagBlock) : String :=
  joined ((if tag.rest = [] then [] else [tag.rest]) ++ tag.below)

/-- The tag can be printed. -/
structure IsPrintable (tag : TagBlock) : Prop where
  /-- It has a name. -/
  named : IsTagName tag.name
  /-- Nothing but blanks stands between the name and the text. -/
  blank : IsMargin tag.gap
  /-- There is a blank if and only if there is a text. -/
  apart : tag.gap = [] ↔ tag.rest = []
  /-- The text fits on a line. -/
  rest : IsLineText tag.rest
  /-- The lines below belong to the tag. -/
  below : ∀ line ∈ tag.below, IsFreeText line

instance (tag : TagBlock) : Decidable tag.IsPrintable :=
  decidable_of_iff (IsTagName tag.name ∧ IsMargin tag.gap ∧ (tag.gap = [] ↔ tag.rest = []) ∧
      IsLineText tag.rest ∧ ∀ line ∈ tag.below, IsFreeText line)
    ⟨fun all => ⟨all.1, all.2.1, all.2.2.1, all.2.2.2.1, all.2.2.2.2⟩,
      fun tag => ⟨tag.named, tag.blank, tag.apart, tag.rest, tag.below⟩⟩

end TagBlock

/-- A description, line by line, and the tags below it. -/
structure Content where
  /-- The lines of the description. -/
  description : List (List Char)
  /-- The tags in order. -/
  tags : List TagBlock

namespace Content

/-- The texts to be printed, each on a line of its own. -/
def texts (content : Content) : List (List Char) :=
  content.description ++ content.tags.flatMap fun tag => tag.heading :: tag.below

/-- The content can be printed. -/
structure IsPrintable (content : Content) : Prop where
  /-- The lines of the description open no tags. -/
  description : ∀ line ∈ content.description, IsFreeText line
  /-- Each tag can be printed. -/
  tags : ∀ tag ∈ content.tags, tag.IsPrintable

instance (content : Content) : Decidable content.IsPrintable :=
  decidable_of_iff ((∀ line ∈ content.description, IsFreeText line) ∧
      ∀ tag ∈ content.tags, tag.IsPrintable)
    ⟨fun both => ⟨both.1, both.2⟩, fun content => ⟨content.description, content.tags⟩⟩

end Content

/-- How a text is set into a line. -/
structure Setting where
  /-- The blanks in front. -/
  lead : List Char
  /-- Whether an asterisk stands before the text. -/
  marker : Bool
  /-- The blanks between the asterisk and the text. -/
  gap : List Char
  /-- The blanks behind the text. -/
  tail : List Char
  /-- Whether a carriage return stands before the line feed. -/
  returns : Bool

namespace Setting

/-- The line with a text set into it. -/
def print (setting : Setting) (text : List Char) : List Char :=
  setting.lead ++ ((if setting.marker then ['*'] else []) ++ (setting.gap ++ text ++
    (setting.tail ++ if setting.returns then ['\r'] else [])))

/-- A text may be set this way: one that starts with an asterisk needs another before it. -/
structure Suits (setting : Setting) (text : List Char) : Prop where
  /-- Only blanks stand in front. -/
  lead : IsMargin setting.lead
  /-- Only blanks stand behind the asterisk. -/
  gap : IsMargin setting.gap
  /-- Only blanks stand behind the text. -/
  tail : IsMargin setting.tail
  /-- The first asterisk of a line is taken for the marker. -/
  marked : text.head? = some '*' → setting.marker = true

instance (setting : Setting) (text : List Char) : Decidable (setting.Suits text) :=
  decidable_of_iff (IsMargin setting.lead ∧ IsMargin setting.gap ∧ IsMargin setting.tail ∧
      (text.head? = some '*' → setting.marker = true))
    ⟨fun all => ⟨all.1, all.2.1, all.2.2.1, all.2.2.2⟩,
      fun suits => ⟨suits.lead, suits.gap, suits.tail, suits.marked⟩⟩

end Setting

/-- The lines of a block, each with its text; the text of a blank line is empty. -/
abbrev Sheet : Type := List (Setting × List Char)

namespace Sheet

/-- The texts on the lines, blank lines aside. -/
def texts (sheet : Sheet) : List (List Char) :=
  (sheet.map Prod.snd).filter fun text => !text.isEmpty

/-- The block with the given lines. -/
def print (sheet : Sheet) : List Char :=
  ['/', '*', '*'] ++ ['\n'].intercalate (sheet.map fun line => line.1.print line.2) ++ ['*', '/']

end Sheet

/-- A code point in one of some ranges is one of those that the ranges list. -/
theorem mem_flatMap_of_inRanges {ranges : List (Nat × Nat)} {n : Nat}
    (inside : inRanges ranges n = true) :
    n ∈ ranges.flatMap fun range => List.range' range.1 (range.2 + 1 - range.1) := by
  induction ranges with
  | nil => simp [inRanges] at inside
  | cons range rest ih =>
    rw [List.flatMap_cons, List.mem_append]
    rw [inRanges] at inside
    split at inside
    · cases inside
    · split at inside
      · -- The code point lies between the ends of the first range.
        left
        rw [List.mem_range'_1]
        omega
      · exact .inr (ih inside)

/-- No blank stands in a tag name, be it inside or at the start. -/
theorem tag_of_isBlank {c : Char} (blank : isBlank c = true) :
    isTagChar c = false ∧ c.isAlpha = false ∧ c ≠ '_' := by
  have points : ∀ n ∈ blankRanges.flatMap fun range => List.range' range.1 (range.2 + 1 - range.1),
      isTagChar (Char.ofNat n) = false ∧ (Char.ofNat n).isAlpha = false ∧ Char.ofNat n ≠ '_' := by
    decide +kernel
  have known := points c.toNat (mem_flatMap_of_inRanges blank)
  rwa [Char.ofNat_toNat] at known

/-- No character of a tag name is a blank. -/
theorem IsTagName.firm {name : List Char} (named : IsTagName name) :
    ∀ c ∈ name, isBlank c = false := by
  intro c member
  cases blank : isBlank c with
  | false => rfl
  | true =>
    obtain ⟨other, letter, score⟩ := tag_of_isBlank blank
    cases name with
    | nil => cases member
    | cons first rest =>
      rcases List.mem_cons.mp member with rfl | later
      · rcases named.1 with alpha | same
        · rw [alpha] at letter
          cases letter
        · exact absurd same score
      · rw [named.2 c later] at other
        cases other

/-- A text is read as a tag line exactly when it starts like a tag. -/
theorem tagLine_eq_none_iff {text : List Char} : tagLine text = none ↔ ¬OpensTag text := by
  unfold tagLine OpensTag
  split
  · simp [OpensName]
  · simp

/-- A margin consists of blanks. -/
theorem IsMargin.blank {cs : List Char} (margin : IsMargin cs) : ∀ c ∈ cs, isBlank c = true :=
  fun c member => (margin c member).1

/-- A margin breaks no line. -/
theorem IsMargin.newline_not_mem {cs : List Char} (margin : IsMargin cs) : '\n' ∉ cs :=
  fun member => (margin _ member).2 rfl

/-- What may stand behind a text consists of blanks. -/
private theorem blank_ending {setting : Setting} {text : List Char} (suits : setting.Suits text) :
    ∀ c ∈ setting.tail ++ (if setting.returns then ['\r'] else []), isBlank c = true := by
  intro c member
  rcases List.mem_append.mp member with inside | behind
  · exact (suits.tail c inside).1
  · have same : c = '\r' := by
      cases returns : setting.returns <;> simp_all
    rw [same]
    decide

/-- The text set into a line is what is read of the line. -/
theorem lineText_print {setting : Setting} {text : List Char} (suits : setting.Suits text)
    (trimmed : trim text = text) : lineText (setting.print text) = text := by
  have inner : trim (setting.gap ++ text ++
      (setting.tail ++ if setting.returns then ['\r'] else [])) = text := by
    rw [trim_append_blank (blank_ending suits), trim_blank_append suits.gap.blank, trimmed]
  unfold lineText Setting.print
  rw [trim_blank_append suits.lead.blank]
  cases marker : setting.marker with
  | true =>
    -- The marker stops the trimming of the front and is then dropped.
    rw [if_pos rfl, List.singleton_append, trim_cons (by decide)]
    show trim (trimEnd _) = text
    rw [trim_trimEnd]
    simpa using inner
  | false =>
    have plain : text.head? ≠ some '*' := fun starts => by
      rw [suits.marked starts] at marker
      cases marker
    simp only [Bool.false_eq_true, if_false, List.nil_append]
    rw [inner]
    split
    · rename_i rest
      exact absurd rfl plain
    · rfl

/-- Nothing in a set line breaks it. -/
theorem newline_not_mem_print {setting : Setting} {text : List Char} (suits : setting.Suits text)
    (single : '\n' ∉ text) : '\n' ∉ setting.print text := by
  have marker : '\n' ∉ (if setting.marker then ['*'] else []) := by
    cases setting.marker <;> decide
  have ending : '\n' ∉ (if setting.returns then ['\r'] else []) := by
    cases setting.returns <;> decide
  simp only [Setting.print, List.mem_append, not_or]
  exact ⟨suits.lead.newline_not_mem, marker, ⟨suits.gap.newline_not_mem, single⟩,
    suits.tail.newline_not_mem, ending⟩

namespace TagBlock.IsPrintable

variable {tag : TagBlock}

/-- The line that opens a tag is read as such. -/
theorem tagLine_heading (printable : tag.IsPrintable) :
    tagLine tag.heading = some (tag.name, tag.rest) := by
  obtain ⟨first, more, named⟩ : ∃ first more, tag.name = first :: more := by
    cases name : tag.name with
    | nil => exact (name ▸ printable.named : IsTagName []).elim
    | cons first more => exact ⟨first, more, rfl⟩
  obtain ⟨starts, inside⟩ : IsTagName (first :: more) := named ▸ printable.named
  have stops : ∀ c ∈ (tag.gap ++ tag.rest).head?, isTagChar c = false := by
    intro c head
    cases gap : tag.gap with
    | nil => simp [gap, printable.apart.mp gap] at head
    | cons blank later =>
      have same : blank = c := by simpa [gap] using head
      exact same ▸ (tag_of_isBlank (printable.blank blank (gap ▸ List.mem_cons_self)).1).1
  have taken : (more ++ (tag.gap ++ tag.rest)).takeWhile isTagChar = more := by
    rw [List.takeWhile_append_of_pos inside]
    cases behind : tag.gap ++ tag.rest with
    | nil => simp
    | cons c later => simp [stops c (by rw [behind]; rfl)]
  have left : (more ++ (tag.gap ++ tag.rest)).dropWhile isTagChar = tag.gap ++ tag.rest := by
    rw [List.dropWhile_append_of_pos inside]
    cases behind : tag.gap ++ tag.rest with
    | nil => rfl
    | cons c later => simp [stops c (by rw [behind]; rfl)]
  have opens : (first.isAlpha || first == '_') = true := by simpa [OpensName] using starts
  have cut : trim (tag.gap ++ tag.rest) = tag.rest := by
    rw [trim_blank_append printable.blank.blank, printable.rest.trimmed]
  simp only [heading, named, List.append_assoc, List.cons_append, tagLine, opens, if_true, taken,
    left, cut]

/-- The line that opens a tag can be set into a line. -/
theorem heading_isLineText (printable : tag.IsPrintable) : IsLineText tag.heading := by
  have firm := printable.named.firm
  constructor
  · refine trim_eq_self (fun c head => ?_) (fun c last => ?_)
    · have same : '@' = c := by simpa [heading] using head
      exact same ▸ by decide
    · -- The last character belongs to the text behind the name or, without one, to the name.
      by_cases empty : tag.rest = []
      · have bare : tag.heading = '@' :: tag.name := by
          simp [heading, empty, printable.apart.mpr empty]
        rw [bare] at last
        rcases List.mem_cons.mp (List.mem_of_getLast? last) with same | member
        · exact same ▸ by decide
        · exact firm c member
      · have ended : tag.heading.getLast? = tag.rest.getLast? := by
          rw [heading, ← List.cons_append, List.getLast?_append_of_ne_nil _ empty]
        rw [ended, ← printable.rest.trimmed] at last
        exact isBlank_getLast?_trim _ c last
  · intro member
    have name : '\n' ∉ tag.name := fun inside => absurd (firm _ inside) (by decide)
    simp only [heading, List.mem_cons, List.mem_append] at member
    rcases member with same | (inside | inside) | inside
    · exact absurd same (by decide)
    · exact name inside
    · exact printable.blank.newline_not_mem inside
    · exact printable.rest.single inside

end TagBlock.IsPrintable

/-- Every text of a printable content can be set into a line. -/
theorem Content.IsPrintable.isLineText {content : Content} (printable : content.IsPrintable) :
    ∀ text ∈ content.texts, IsLineText text := by
  intro text member
  rcases List.mem_append.mp member with described | tagged
  · exact (printable.description text described).toIsLineText
  · obtain ⟨tag, inside, line⟩ := List.mem_flatMap.mp tagged
    rcases List.mem_cons.mp line with rfl | below
    · exact (printable.tags tag inside).heading_isLineText
    · exact ((printable.tags tag inside).below text below).toIsLineText

/-- What a text contributes that stands on a line of its own. -/
def BlockLine.ofText (text : List Char) : Option BlockLine :=
  match tagLine text with
  | some (name, rest) => some (.tag name rest)
  | none => if text.isEmpty then none else some (.text text)

/-- A line contributes what its text does. -/
theorem BlockLine.ofLine_eq (line : List Char) : ofLine line = ofText (lineText line) := rfl

/-- Free text is taken as it is. -/
theorem BlockLine.ofText_free {text : List Char} (free : IsFreeText text) :
    ofText text = some (.text text) := by
  simp [ofText, tagLine_eq_none_iff.mpr free.free, free.some_char]

/-- Lines of free text are taken as they are. -/
theorem filterMap_ofText_free {lines : List (List Char)} (free : ∀ line ∈ lines, IsFreeText line) :
    lines.filterMap BlockLine.ofText = lines.map .text := by
  induction lines with
  | nil => rfl
  | cons line rest ih =>
    rw [List.filterMap_cons_some (BlockLine.ofText_free (free line List.mem_cons_self)),
      ih fun other member => free other (List.mem_cons_of_mem line member), List.map_cons]

/-- What a tag contributes. -/
def TagBlock.lines (tag : TagBlock) : List BlockLine :=
  .tag tag.name tag.rest :: tag.below.map .text

/-- The texts of a content contribute its description and then its tags. -/
theorem Content.IsPrintable.filterMap_texts {content : Content}
    (printable : content.IsPrintable) :
    content.texts.filterMap BlockLine.ofText =
      content.description.map .text ++ content.tags.flatMap TagBlock.lines := by
  have tagged : ∀ tags : List TagBlock, (∀ tag ∈ tags, tag.IsPrintable) →
      (tags.flatMap fun tag => tag.heading :: tag.below).filterMap BlockLine.ofText =
        tags.flatMap TagBlock.lines := by
    intro tags each
    induction tags with
    | nil => rfl
    | cons tag rest ih =>
      have here := each tag List.mem_cons_self
      have heading : BlockLine.ofText tag.heading = some (.tag tag.name tag.rest) := by
        simp [BlockLine.ofText, here.tagLine_heading]
      rw [List.flatMap_cons, List.filterMap_append, List.filterMap_cons_some heading,
        filterMap_ofText_free here.below, ih fun other member =>
          each other (List.mem_cons_of_mem tag member), List.flatMap_cons]
      rfl
  rw [texts, List.filterMap_append, filterMap_ofText_free printable.description,
    tagged content.tags printable.tags]

/-- Lines above the first tag are those of the description. -/
theorem leadingTexts_append (lines : List (List Char)) (tags : List TagBlock) :
    leadingTexts (lines.map .text ++ tags.flatMap TagBlock.lines) = lines := by
  induction lines with
  | nil =>
    cases tags with
    | nil => rfl
    | cons tag rest => rfl
  | cons line rest ih => rw [List.map_cons, List.cons_append, leadingTexts, ih]

/-- Lines above the first tag belong to no tag. -/
theorem tagTexts_append (lines : List (List Char)) (later : List BlockLine) :
    tagTexts (lines.map .text ++ later) = tagTexts later := by
  induction lines with
  | nil => rfl
  | cons line rest ih => rw [List.map_cons, List.cons_append, tagTexts, ih]

/-- Each tag has the text on its own line and on the lines below. -/
theorem tagTexts_flatMap_lines (tags : List TagBlock) :
    tagTexts (tags.flatMap TagBlock.lines) =
      tags.map fun tag => (String.ofList tag.name, tag.text) := by
  induction tags with
  | nil => rfl
  | cons tag rest ih =>
    have below := leadingTexts_append tag.below rest
    rw [List.flatMap_cons, TagBlock.lines, List.cons_append, tagTexts, below, tagTexts_append, ih,
      List.map_cons, TagBlock.text]
    simp only [List.isEmpty_iff]

/-- A carriage return before a line feed contributes nothing. -/
theorem BlockLine.ofLine_dropReturn (line : List Char) : ofLine (dropReturn line) = ofLine line := by
  unfold dropReturn
  split
  · rename_i returns
    have ended : line.dropLast ++ ['\r'] = line :=
      List.dropLast_append_getLast? '\r' (by simpa using returns)
    have blank : ∀ c ∈ ['\r'], isBlank c = true := List.forall_mem_singleton.mpr rfl
    have same : trim line = trim line.dropLast := by
      rw [← trim_append_blank blank line.dropLast, ended]
    have text : lineText line.dropLast = lineText line := by rw [lineText, lineText, same]
    rw [ofLine_eq, ofLine_eq, text]
  · rfl

/-- It makes no difference whether a text has a line behind its last line feed. -/
theorem filterMap_textLines (cs : List Char) :
    (textLines cs).filterMap BlockLine.ofLine = (splitLines cs).filterMap BlockLine.ofLine := by
  obtain ⟨last, isLast⟩ : ∃ last, (splitLines cs).getLast? = some last :=
    ⟨_, List.getLast?_eq_some_getLast (splitLines_ne_nil cs)⟩
  have whole := List.dropLast_append_getLast? last isLast
  have front : ((splitLines cs).dropLast.map dropReturn).filterMap BlockLine.ofLine =
      (splitLines cs).dropLast.filterMap BlockLine.ofLine := by
    rw [List.filterMap_map]
    exact congrFun (congrArg _ (funext BlockLine.ofLine_dropReturn)) _
  have back : (if last.isEmpty then [] else [last]).filterMap BlockLine.ofLine =
      [last].filterMap BlockLine.ofLine := by
    cases last with
    | nil => rfl
    | cons c rest => rfl
  rw [← whole]
  simp only [textLines, isLast, Option.getD_some, List.filterMap_append, front, back]

/-- A documentation block with a text between its delimiters. -/
def documenting (body : List Char) : List Char :=
  ['/', '*', '*'] ++ body ++ ['*', '/']

/-- A text between slashes is not trimmed. -/
theorem trim_slashes (inner : List Char) : trim ('/' :: inner ++ ['/']) = '/' :: inner ++ ['/'] := by
  refine trim_eq_self (fun c head => ?_) (fun c last => ?_)
  · have same : '/' = c := by simpa using head
    exact same ▸ by decide
  · rw [List.getLast?_concat, Option.mem_some_iff] at last
    exact last ▸ by decide

/-- The delimiters of a documentation block are all that is taken off. -/
theorem blockBody_documenting (body : List Char) : blockBody (documenting body) = body := by
  have trimmed : trim (documenting body) = documenting body := by
    have whole : documenting body = '/' :: (['*', '*'] ++ body ++ ['*']) ++ ['/'] := by
      simp [documenting]
    rw [whole, trim_slashes]
  have opened : ['/', '*', '*'].isPrefixOf? (documenting body) = some (body ++ ['*', '/']) :=
    List.isPrefixOf?_eq_some_iff_append_eq.mpr (List.append_assoc _ _ _).symm
  simp only [blockBody, trimmed, opened, dropClosing]
  rw [List.isSuffixOf?_eq_some_iff_append_eq.mpr rfl, Option.getD_some]

/-- The delimiters of a printed block are all that is taken off. -/
theorem blockBody_print (sheet : Sheet) :
    blockBody sheet.print = ['\n'].intercalate (sheet.map fun line => line.1.print line.2) :=
  blockBody_documenting _

/-- What a printed block contributes, line by line. -/
theorem filterMap_textLines_print {sheet : Sheet}
    (suits : ∀ line ∈ sheet, line.1.Suits line.2) (fits : ∀ line ∈ sheet, IsLineText line.2) :
    (textLines (blockBody sheet.print)).filterMap BlockLine.ofLine =
      sheet.texts.filterMap BlockLine.ofText := by
  -- Blank lines contribute nothing, so it does not matter that the texts leave them out.
  have blank : sheet.texts.filterMap BlockLine.ofText =
      (sheet.map Prod.snd).filterMap BlockLine.ofText := by
    rw [Sheet.texts, List.filterMap_filter]
    refine List.filterMap_congr fun text _ => ?_
    cases text with
    | nil => rfl
    | cons c rest => rfl
  rw [blockBody_print, filterMap_textLines, blank]
  cases sheet with
  | nil => rfl
  | cons line rest =>
    rw [splitLines_intercalate (by simp), List.filterMap_map, List.filterMap_map]
    · refine List.filterMap_congr fun other member => ?_
      simp only [Function.comp_apply, BlockLine.ofLine_eq,
        lineText_print (suits other member) (fits other member).trimmed]
    · intro printed member
      obtain ⟨other, inside, rfl⟩ := List.mem_map.mp member
      exact newline_not_mem_print (suits other inside) (fits other inside).single

/-- A description and tags printed into a comment block are read back whatever the layout: the lines
of the description with single spaces between them, and for each name the text of its last tag. -/
theorem ofBlock_print {content : Content} {sheet : Sheet} (printable : content.IsPrintable)
    (suits : ∀ line ∈ sheet, line.1.Suits line.2) (set : sheet.texts = content.texts) :
    (ofBlock sheet.print).description =
        (if content.description = [] then none else some (joined content.description)) ∧
      ∀ name, (ofBlock sheet.print).tags.find? name =
        ((content.tags.filter fun tag => String.ofList tag.name == name).getLast?).map
          TagBlock.text := by
  have fits : ∀ line ∈ sheet, IsLineText line.2 := by
    intro line member
    by_cases empty : line.2 = []
    · rw [empty]
      exact ⟨rfl, by simp⟩
    · -- A text that is not empty is one of those of the content.
      refine printable.isLineText line.2 ?_
      rw [← set, Sheet.texts]
      exact List.mem_filter.mpr ⟨List.mem_map_of_mem member, by simpa using empty⟩
  have lines : (textLines (blockBody sheet.print)).filterMap BlockLine.ofLine =
      content.description.map .text ++ content.tags.flatMap TagBlock.lines := by
    rw [filterMap_textLines_print suits fits, set, printable.filterMap_texts]
  simp only [ofBlock, lines]
  constructor
  · simp only [leadingTexts_append, List.isEmpty_iff]
  · intro name
    rw [tagTexts_append, tagTexts_flatMap_lines, NameMap.find?_ofList, List.filter_map,
      List.getLast?_map, Option.map_map]
    rfl

/-- A block with a repeated tag, lone asterisks and both kinds of line ends keeps the last text of the
tag. -/
theorem ofBlock_print_repeated :
    (ofBlock "/** Adds *up*.\r\n * @param a  first \n*\n@param b\r\n  ** second\n  */".toList).description =
        some "Adds *up*." ∧
      (ofBlock "/** Adds *up*.\r\n * @param a  first \n*\n@param b\r\n  ** second\n  */".toList).tags.find?
        "param" = some "b * second" := by
  let content : Content :=
    ⟨["Adds *up*.".toList],
      [⟨"param".toList, [' '], "a  first".toList, []⟩,
        ⟨"param".toList, [' '], "b".toList, ["* second".toList]⟩]⟩
  let sheet : Sheet :=
    [(⟨[' '], false, [], [], true⟩, "Adds *up*.".toList),
      (⟨[' '], true, [' '], [' '], false⟩, "@param a  first".toList),
      (⟨[], true, [], [], false⟩, []),
      (⟨[], false, [], [], true⟩, "@param b".toList),
      (⟨[' ', ' '], true, [], [], false⟩, "* second".toList),
      (⟨[' ', ' '], false, [], [], false⟩, [])]
  have read := @ofBlock_print content sheet (by decide +kernel) (by decide +kernel)
    (by decide +kernel)
  have printed : sheet.print =
      "/** Adds *up*.\r\n * @param a  first \n*\n@param b\r\n  ** second\n  */".toList := by
    decide +kernel
  rw [printed] at read
  refine ⟨read.1.trans (by decide +kernel), (read.2 "param").trans (by decide +kernel)⟩

end SourceOutline.DocComment
