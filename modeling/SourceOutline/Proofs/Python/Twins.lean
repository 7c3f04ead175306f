import SourceOutline.Proofs.Python.Literals
import SourceOutline.Proofs.Python.ReturnedTexts
import SourceOutline.Proofs.Python.Transcripts

/-! The nodes of a source and those in their places in the copy with carriage returns. -/

namespace SourceOutline

open Text

/-- A text with a carriage return in front of every line feed. -/
def returnedText (text : String) : String := String.ofList (withReturns text.toList)

namespace Python

open DocComment

/-- A node of a source and the node in its place in the copy, whose names and quotes are given tokens. -/
structure Twin (source : List Char) (given : List Token) (node node' : Node) : Prop where
  /-- The nodes correspond. -/
  alike : Node.Alike (Copied source) node node'
  /-- The node of the copy is spelled with the tokens. -/
  spelled : node'.Spelled given

section

variable {source : List Char} {given : List Token} {node node' : Node}

/-- Nodes that correspond one by one are twins when those of the copy are spelled. -/
theorem forall₂_twin {nodes nodes' : List Node} (alike : List.Forall₂ (Node.Alike (Copied source)) nodes nodes')
    (spelled : AllSpelled given nodes') : List.Forall₂ (Twin source given) nodes nodes' := by
  induction alike with
  | nil => exact .nil
  | cons first rest ih =>
    obtain ⟨here, later⟩ := allSpelled_cons.mp spelled
    exact .cons ⟨first, here⟩ (ih later)

namespace Twin

/-- Twins are of the same kind. -/
theorem kind (twin : Twin source given node node') : node'.kind = node.kind := twin.alike.kind

/-- The children of twins are twins. -/
theorem children (twin : Twin source given node node') :
    List.Forall₂ (Twin source given) node.children node'.children :=
  forall₂_twin twin.alike.children twin.spelled.children

/-- The named children of twins are twins. -/
theorem namedChildren (twin : Twin source given node node') :
    List.Forall₂ (Twin source given) node.namedChildren node'.namedChildren :=
  filter_rel (fun _ _ twin => by rw [Node.isNamed, Node.isNamed, twin.kind]) twin.children

/-- The children of twins in one role are twins. -/
theorem child? (twin : Twin source given node node') (role : Role) :
    Option.Rel (Twin source given) (node.child? role) (node'.child? role) :=
  find?_rel (fun _ _ twin => by rw [twin.alike.role]) twin.children

/-- The first children of twins of one kind are twins. -/
theorem ofKind (twin : Twin source given node node') (kind : Kind) :
    Option.Rel (Twin source given) (node.children.find? fun part => part.kind == kind)
      (node'.children.find? fun part => part.kind == kind) :=
  find?_rel (fun _ _ twin => by rw [twin.kind]) twin.children

/-- The children of twins are of the same kinds. -/
theorem any_kind (twin : Twin source given node node') (kind : Kind) :
    (node'.children.any fun part => part.kind == kind) = node.children.any fun part => part.kind == kind :=
  any_rel (fun _ _ twin => by rw [twin.kind]) twin.children

/-- The parts of the children of twins in one role are twins. -/
theorem childParts (twin : Twin source given node node') (role : Role) :
    List.Forall₂ (Twin source given) (((node.child? role).map Node.namedChildren).getD [])
      (((node'.child? role).map Node.namedChildren).getD []) := by
  have child := twin.child? role
  generalize node.child? role = part, node'.child? role = part' at child ⊢
  cases child with
  | none => exact .nil
  | some part => exact part.namedChildren

/-- Twins have the same text on one line. -/
theorem collapsed_eq (twin : Twin source given node node') :
    node'.collapsed (withReturns source) = node.collapsed source := by
  rw [Node.collapsed, Node.collapsed]
  exact congrArg String.ofList (twin.alike.start.textBetween twin.alike.stop).collapse_eq

/-- Twins start on the same line. -/
theorem line_eq (twin : Twin source given node node') : node'.line = node.line := by
  rw [Node.line, Node.line, twin.alike.start.row]

end Twin

/-- The definitions below the decorators of twins are twins. -/
theorem definitionOf_twin (twin : Twin source given node node') :
    Option.Rel (Twin source given) (definitionOf node) (definitionOf node') := by
  unfold definitionOf
  rw [twin.kind]
  split
  · exact .some twin
  · exact .some twin
  · exact twin.child? .definition
  · exact .none

variable (stands : ∀ token ∈ given, token.Stands (withReturns source))

include stands

/-- A single token has the same text in the copy. -/
theorem Twin.token_text (twin : Twin source given node node') (token : node.kind.isToken = true) :
    node'.text (withReturns source) = node.text source :=
  (twin.spelled.formed.token (by rw [twin.kind]; exact token)).textBetween_eq stands
    twin.alike.start twin.alike.stop

/-- Twins between tokens have the same text up to carriage returns. -/
theorem Twin.text_eq (twin : Twin source given node node') (starts : Beside given node'.start)
    (stops : Beside given node'.stop) : node'.text (withReturns source) = withReturns (node.text source) :=
  (twin.alike.start.level_of_beside stands starts).textBetween_eq (twin.alike.stop.level_of_beside stands stops)

/-- A definition has the same text in the copy, apart from carriage returns. -/
theorem Twin.dedented_eq (twin : Twin source given node node') (plain : '\r' ∉ source)
    (defines : node.kind.defines = true) :
    (dedented (withReturns source) node').filter (· ≠ '\r') = dedented source node :=
  have starts := twin.spelled.formed.starts (by rw [twin.kind]; exact defines)
  dedented_withReturns plain (twin.alike.start.level_of_beside stands starts) twin.alike.stop

/-- The literal of the copy has the same content with carriage returns. -/
theorem Twin.literalOf_eq (twin : Twin source given node node') :
    literalOf (withReturns source) node' = (literalOf source node).map Literal.returned := by
  have first := twin.ofKind .stringStart
  have last := twin.ofKind .stringEnd
  unfold literalOf
  rw [twin.kind, twin.any_kind]
  split
  · rfl
  · cases openings : node.children.find? fun part => part.kind == .stringStart with
    | none =>
      rw [openings] at first
      rw [eq_none_of_rel_none first]
      rfl
    | some opening =>
      rw [openings] at first
      obtain ⟨opening', same, opens⟩ := exists_of_rel_some first
      cases closings : node.children.find? fun part => part.kind == .stringEnd with
      | none =>
        rw [closings] at last
        rw [same, eq_none_of_rel_none last]
        rfl
      | some closing =>
        rw [closings] at last
        obtain ⟨closing', same', closes⟩ := exists_of_rel_some last
        have quote : opening.kind = .stringStart := by simpa using List.find?_some openings
        have quote' : closing.kind = .stringEnd := by simpa using List.find?_some closings
        obtain ⟨token, member, written, _, stop⟩ := opens.spelled.formed.token (by rw [opens.kind, quote]; rfl)
        obtain ⟨token', member', written', start, _⟩ :=
          closes.spelled.formed.token (by rw [closes.kind, quote']; rfl)
        have content :=
          (opens.alike.stop.level_of_beside stands ⟨token, member, written, .inr stop.symm⟩).textBetween_eq
          (closes.alike.start.level_of_beside stands ⟨token', member', written', .inl start.symm⟩)
        rw [same, same']
        simp only [Option.bind_eq_bind, Option.bind_some, opens.token_text stands (by rw [quote]; rfl), content]
        split <;> rfl

/-- The literals of the copy have the same contents with carriage returns. -/
theorem literalsOf_eq {parts parts' : List Node} (twins : List.Forall₂ (Twin source given) parts parts') :
    literalsOf (withReturns source) parts' = (literalsOf source parts).map Literal.returned := by
  have found : parts'.mapM (literalOf (withReturns source)) =
      (parts.mapM (literalOf source)).map (List.map Literal.returned) := by
    induction twins with
    | nil => rfl
    | @cons part part' rest rest' first later ih =>
      rw [List.mapM_cons, List.mapM_cons, first.literalOf_eq stands, ih]
      cases literalOf source part with
      | none => rfl
      | some literal => cases rest.mapM (literalOf source) <;> rfl
  rw [literalsOf, literalsOf, found]
  cases parts.mapM (literalOf source) <;> rfl

end

/-- The literals that twins start with are twins. -/
theorem docParts_twin {source : List Char} {given : List Token} {body body' : Node}
    (twin : Twin source given body body') :
    List.Forall₂ (Twin source given) (docParts body) (docParts body') := by
  have comments : ∀ node node', Twin source given node node' → (!node'.isComment) = !node.isComment :=
    fun _ _ twin => by rw [Node.isComment, Node.isComment, twin.kind]
  have found := find?_rel comments twin.namedChildren
  unfold docParts
  generalize (body.namedChildren.find? fun child => !child.isComment) = first,
    (body'.namedChildren.find? fun child => !child.isComment) = first' at found ⊢
  cases found with
  | none => exact .nil
  | @some first first' firsts =>
    have inner := firsts.namedChildren
    simp only [firsts.kind]
    generalize first.namedChildren = parts, first'.namedChildren = parts' at inner ⊢
    generalize first.kind = kind
    cases inner with
    | nil => cases kind <;> exact .nil
    | @cons literal literal' _ _ literals others =>
      cases others with
      | cons => cases kind <;> exact .nil
      | nil =>
        cases kind with
        | expressionStatement =>
          simp only [literals.kind]
          cases literal.kind with
          | string => exact .cons literals .nil
          | concatenatedString => exact filter_rel comments literals.namedChildren
          | _ => exact .nil
        | _ => exact .nil

section

variable {source : List Char} {given : List Token} {tree definition definition' span span' : Node}
  (stands : ∀ token ∈ given, token.Stands (withReturns source))

include stands

/-- The documentation of the copy is what the signs of the source stand for with carriage returns. -/
theorem Twin.bodyDoc_eq (twin : Twin source given definition definition') :
    bodyDoc (withReturns source) definition' =
      ofDocstring ((docSigns source definition).flatMap Sign.returned) := by
  have parts : List.Forall₂ (Twin source given) (((definition.child? .body).map docParts).getD [])
      (((definition'.child? .body).map docParts).getD []) := by
    have body := twin.child? .body
    generalize definition.child? .body = block, definition'.child? .body = block' at body ⊢
    cases body with
    | none => exact .nil
    | some block => exact docParts_twin block
  rw [Python.bodyDoc_eq, docSigns, docSigns, literalsOf_eq stands parts, List.flatMap_assoc, List.flatMap_assoc,
    List.flatMap_map]
  simp only [Literal.flatMap_text_signs, Literal.flatMap_returned_signs]

/-- An identifier has the same text in the copy, without line breaks. -/
theorem Twin.identifier_text (twin : Twin source given definition definition')
    (isName : definition.kind = .identifier) :
    String.ofList (definition'.text (withReturns source)) = String.ofList (definition.text source) ∧
      returnedText (String.ofList (definition.text source)) = String.ofList (definition.text source) := by
  have token : definition.kind.isToken = true := by rw [isName]; rfl
  have same := twin.token_text stands token
  obtain ⟨own, member, written, starts, stops⟩ := twin.spelled.formed.token (by rw [twin.kind]; exact token)
  have copy := twin.text_eq stands ⟨own, member, written, .inl starts.symm⟩ ⟨own, member, written, .inr stops.symm⟩
  refine ⟨congrArg String.ofList same, ?_⟩
  rw [returnedText, String.toList_ofList, ← copy, same]

/-- The copy has the names and the types of the source, and patterns with carriage returns. -/
theorem transcribes_twin : Transcribes source (withReturns source) returnedText (Twin source given) where
  kind := Twin.kind
  role twin := twin.alike.role
  children := Twin.children
  collapsed := Twin.collapsed_eq
  identifier twin := twin.identifier_text stands
  named twin isNamed name found := by
    have names := twin.child? .name
    rw [found] at names
    obtain ⟨name', same, names⟩ := exists_of_rel_some names
    exact names.kind.symm.trans (twin.spelled.formed.named (by rw [twin.kind]; exact isNamed) name' same)
  pattern twin kind := by
    have formed := twin.spelled.formed
    have isDefault := twin.kind.trans kind
    refine ⟨?_, fun name name' _ names found => ?_⟩
    · have types := twin.child? .type
      rw [formed.untyped isDefault] at types
      generalize Node.child? _ Role.type = type at types
      cases types
      rfl
    obtain ⟨starts, stops⟩ := formed.target isDefault name' found
    rw [names.text_eq stands starts stops, returnedText, String.toList_ofList]

end

end Python

end SourceOutline
