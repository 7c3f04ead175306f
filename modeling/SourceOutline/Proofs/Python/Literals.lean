import SourceOutline.Proofs.Python.Signs
import SourceOutline.Python.Extract

/-! The literals that the documentation of a definition is made of. -/

namespace SourceOutline.Python

open DocComment Text

/-- The content of a string literal, and whether its backslashes stand for themselves. -/
structure Literal where
  /-- Backslashes stand for themselves. -/
  raw : Bool
  /-- What stands between the quotes. -/
  content : List Char

namespace Literal

/-- The text that a literal stands for. -/
def value (literal : Literal) : List Char :=
  if literal.raw then literal.content else unescape literal.content

/-- What a literal says. -/
def signs (literal : Literal) : List Sign :=
  if literal.raw then literal.content.map .ofChar else escapedSigns literal.content

/-- The literal with a carriage return before every line feed. -/
def returned (literal : Literal) : Literal := { literal with content := withReturns literal.content }

/-- The signs of a literal stand for its text. -/
theorem flatMap_text_signs (literal : Literal) : literal.signs.flatMap Sign.text = literal.value := by
  obtain ⟨raw, content⟩ := literal
  cases raw with
  | false => exact flatMap_text_escapedSigns content
  | true =>
    show (content.map .ofChar).flatMap Sign.text = content
    induction content with
    | nil => rfl
    | cons c rest ih => rw [List.map_cons, List.flatMap_cons, ih, Sign.text_ofChar, List.singleton_append]

/-- The signs of a literal stand for the text of the literal with carriage returns. -/
theorem flatMap_returned_signs (literal : Literal) :
    literal.signs.flatMap Sign.returned = literal.returned.value := by
  obtain ⟨raw, content⟩ := literal
  cases raw with
  | false => exact flatMap_returned_escapedSigns content
  | true =>
    show (content.map .ofChar).flatMap Sign.returned = withReturns content
    induction content with
    | nil => rfl
    | cons c rest ih =>
      rw [List.map_cons, List.flatMap_cons, ih, Sign.returned_ofChar, ← withReturns_append, List.singleton_append]

end Literal

/-- The literal that a node of a source is; literals of bytes and formats do not count. -/
def literalOf (source : List Char) (node : Node) : Option Literal := do
  if node.kind != .string || node.children.any (fun part => part.kind == .interpolation) then none
  let opening ← node.children.find? fun part => part.kind == .stringStart
  let closing ← node.children.find? fun part => part.kind == .stringEnd
  let letters := stringLetters (opening.text source)
  if letters.contains 'f' || letters.contains 'b' then none
  return ⟨letters.contains 'r', textBetween source opening.stop closing.start⟩

/-- The text of a node is that of its literal. -/
theorem stringValue_eq (source : List Char) (node : Node) :
    stringValue source node = (literalOf source node).map Literal.value := by
  simp only [stringValue, literalOf, Option.bind_eq_bind, Option.pure_def]
  split
  · rfl
  · cases node.children.find? fun part => part.kind == .stringStart with
    | none => rfl
    | some opening =>
      cases node.children.find? fun part => part.kind == .stringEnd with
      | none => rfl
      | some closing =>
        simp only [Option.bind_some]
        split <;> rfl

/-- The nodes of the literals that a body starts with. -/
def docParts (body : Node) : List Node :=
  match body.namedChildren.find? fun child => !child.isComment with
  | none => []
  | some first =>
    -- The literal must be a statement of its own.
    match first.kind, first.namedChildren with
    | .expressionStatement, [literal] =>
      match literal.kind with
      | .string => [literal]
      | .concatenatedString => literal.namedChildren.filter fun part => !part.isComment
      | _ => []
    | _, _ => []

/-- The literals of some nodes, none when one of the nodes is no literal that counts. -/
def literalsOf (source : List Char) (parts : List Node) : List Literal :=
  (parts.mapM (literalOf source)).getD []

/-- Literals side by side stand for their texts one after the other. -/
theorem joinedValue_eq (source : List Char) (parts : List Node) :
    joinedValue source parts =
      ((parts.filter fun part => !part.isComment).mapM (literalOf source)).map (·.flatMap Literal.value) := by
  induction parts with
  | nil => rfl
  | cons part rest ih =>
    rw [joinedValue, List.filter_cons]
    cases part.isComment with
    | true => exact ih
    | false =>
      simp only [Bool.false_eq_true, if_false, Bool.not_false, if_true, stringValue_eq, ih, List.mapM_cons,
        Option.bind_eq_bind, Option.pure_def]
      cases literalOf source part with
      | none => rfl
      | some first =>
        simp only [Option.map_some, Option.bind_some]
        cases (rest.filter fun part => !part.isComment).mapM (literalOf source) <;> rfl

/-- The text that a body starts with is that of its literals. -/
theorem docstring_getD (source : List Char) (body : Node) :
    (docstring source body).getD [] = (literalsOf source (docParts body)).flatMap Literal.value := by
  unfold docstring docParts
  cases body.namedChildren.find? fun child => !child.isComment with
  | none => rfl
  | some first =>
    simp only [Option.bind_eq_bind, Option.bind_some]
    generalize first.kind = kind, first.namedChildren = inner
    cases inner with
    | nil => cases kind <;> rfl
    | cons literal others =>
      cases others with
      | cons second more => cases kind <;> rfl
      | nil =>
        cases kind with
        | expressionStatement =>
          simp only
          cases literal.kind with
          | string =>
            simp only [stringValue_eq, literalsOf, List.mapM_cons]
            cases literalOf source literal <;> simp
          | concatenatedString =>
            simp only [joinedValue_eq, literalsOf]
            cases (literal.namedChildren.filter fun part => !part.isComment).mapM (literalOf source) <;> rfl
          | _ => rfl
        | _ => rfl

/-- What the documentation of a definition says. -/
def docSigns (source : List Char) (definition : Node) : List Sign :=
  (literalsOf source (((definition.child? .body).map docParts).getD [])).flatMap Literal.signs

/-- The documentation of a definition is the text of its signs. -/
theorem bodyDoc_eq (source : List Char) (definition : Node) :
    bodyDoc source definition = ofDocstring ((docSigns source definition).flatMap Sign.text) := by
  have empty : ofDocstring [] = {} := by decide
  have text : ((definition.child? .body).bind (docstring source)).getD [] =
      (docSigns source definition).flatMap Sign.text := by
    rw [docSigns, List.flatMap_assoc]
    simp only [Literal.flatMap_text_signs]
    cases definition.child? .body with
    | none => rfl
    | some body => exact docstring_getD source body
  rw [bodyDoc, ← text]
  cases (definition.child? .body).bind (docstring source) with
  | none => exact empty.symm
  | some content => rfl

end SourceOutline.Python
