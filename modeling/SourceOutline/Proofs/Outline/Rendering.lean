import SourceOutline.Proofs.Python.Rendering
import SourceOutline.Proofs.Script.DocSharing
import SourceOutline.Proofs.Text.Squeeze

/-! The types, base classes, default values and imports of an outline are stretches of the source on one line. -/

namespace SourceOutline

open Text

/-- A type noted for a function is that of one of its parameters. -/
theorem exists_of_noted {π : Type} {given : List π} {full : π → Option (String × Option String)}
    {start : FunctionOutline} (noTypes : start.annotations = .empty) {name text : String}
    (noted : ((given.filterMap full).foldl
      (fun outline listed => outline.addParameter listed.1 listed.2) start).annotations.find? name = some text) :
    ∃ parameter ∈ given, full parameter = some (name, some text) := by
  rw [FunctionOutline.foldl_addParameter, noTypes] at noted
  obtain ⟨member, _⟩ := mem_typed_iff.mp (NameMap.mem_of_find?_ofList noted)
  exact List.mem_filterMap.mp member

namespace Python

/-- The types noted for a function render those in the header of its definition. -/
structure RendersTypes (source : List Char) (definition : Node) (function : FunctionOutline) : Prop where
  /-- A type noted for an entry renders that of a positional parameter with this entry. -/
  parameters : ∀ name text, function.annotations.find? name = some text →
    ∃ parameter ∈ definition.positional, Node.entry source parameter = some name ∧
      ∃ type, parameter.annotation? = some type ∧ Renders source type text
  /-- The type of the result renders that behind the arrow, if there is one. -/
  returns : Option.Rel (Renders source) (definition.child? .returns) function.returns

/-- The parts of the header of a class that tell what it is derived from. -/
def Node.derived (definition : Node) : List Node :=
  (((definition.child? .bases).map Node.namedChildren).getD []).filter fun base =>
    base.kind != .keywordArgument && !base.isComment

/-- The texts of an outline render parts of the tree of its source. -/
structure RendersTexts (source : List Char) (tree : Node) (listed : ModuleOutline) : Prop where
  /-- Functions and methods have the types of definitions in the tree. -/
  functions : ∀ function, listed.Lists function → ∃ definition span, Within tree definition ∧
    definition.kind = .functionDefinition ∧ functionOutline source definition span = some function ∧
    RendersTypes source definition function
  /-- Classes have the bases of definitions in the tree. -/
  classes : ∀ owner ∈ listed.classes, ∃ definition span notes, Within tree definition ∧
    definition.kind = .classDefinition ∧ classOutline source definition span = some (owner, notes) ∧
    List.Forall₂ (Renders source) definition.derived owner.bases
  /-- The imports are the statements of the tree that import. -/
  imports : List.Forall₂ (Renders source)
    (tree.children.filter fun statement => statement.kind = .importStatement) listed.imports

variable {source : List Char} {tree : Node}

/-- The definitions in a part of a tree are among those in the tree. -/
theorem Within.definitions_subset {node : Node} (within : Within tree node) : node.definitions ⊆ tree.definitions := by
  induction within with
  | refl => exact List.Subset.refl _
  | tail _ child ih => exact List.Subset.trans (definitions_sublist child).subset ih

/-- A child that is found in a role is one in this role. -/
theorem Node.of_child? {node child : Node} {role : Role} (found : node.child? role = some child) :
    child ∈ node.children ∧ child.role = role :=
  ⟨List.mem_of_find?_eq_some found, by simpa using List.find?_some found⟩

section

variable {definition : Node} (parsed : parse source = some tree) (within : Within tree definition)

include parsed within

/-- The types of a definition are rendered by those noted for its function. -/
theorem rendersTypes {span : Node} {function : FunctionOutline} (kind : definition.kind = .functionDefinition)
    (outlined : functionOutline source definition span = some function) : RendersTypes source definition function := by
  have member := within.definitions_subset (Node.mem_definitions_self (Kind.defines_of_either (.inl kind)))
  obtain ⟨layout, line, laid, among, upright⟩ := exists_upright parsed member (by simp [kind])
  obtain ⟨name, _, rfl⟩ := Option.map_eq_some_iff.mp outlined
  constructor
  · intro name text noted
    simp only [listedParameters_eq] at noted
    obtain ⟨parameter, positional, same⟩ := exists_of_noted rfl noted
    obtain ⟨target, named, same⟩ := Option.map_eq_some_iff.mp same
    obtain ⟨entry, typed⟩ := Prod.mk.inj same
    obtain ⟨type, annotation, rfl⟩ := Option.map_eq_some_iff.mp typed
    refine ⟨parameter, positional, Option.map_eq_some_iff.mpr ⟨target, named, entry⟩, type, annotation, ?_⟩
    obtain ⟨part, found, inside⟩ : ∃ part, definition.child? .parameters = some part ∧ parameter ∈ part.namedChildren := by
      have given := (List.takeWhile_sublist _).subset positional
      cases found : definition.child? .parameters with
      | none => simp [found] at given
      | some part => exact ⟨part, rfl, by simpa [found] using given⟩
    obtain ⟨member, role⟩ := Node.of_child? found
    obtain ⟨own, typed⟩ := Node.of_child? (Option.ite_none_left_eq_some.mp annotation).2
    -- A pattern that takes a tuple apart is no target.
    have single : parameter.kind ≠ .tuplePattern := fun pattern => by simp [Node.target?, pattern] at named
    have stand := (upright part member (by simp [role])).types role parameter (List.mem_of_mem_filter inside)
    exact renders_of_stands laid among (stand single type own typed)
  · rw [FunctionOutline.foldl_addParameter]
    cases found : definition.child? .returns with
    | none => exact .none
    | some type =>
      obtain ⟨member, role⟩ := Node.of_child? found
      exact .some (renders_of_stands laid among ((upright type member (by simp [role])).returns role))

/-- The bases of a class are rendered. -/
theorem forall₂_renders_derived (kind : definition.kind = .classDefinition) :
    List.Forall₂ (Renders source) definition.derived (baseNames source definition) := by
  have member := within.definitions_subset (Node.mem_definitions_self (Kind.defines_of_either (.inr kind)))
  obtain ⟨layout, line, laid, among, upright⟩ := exists_upright parsed member (by simp [kind])
  have each : ∀ base ∈ definition.derived, Renders source base (base.collapsed source) := by
    intro base inside
    obtain ⟨given, counts⟩ := List.mem_filter.mp inside
    cases found : definition.child? .bases with
    | none => simp [found] at given
    | some part =>
      obtain ⟨member, role⟩ := Node.of_child? found
      have own : base ∈ part.namedChildren := by simpa [found] using given
      rcases (upright part member (by simp [role])).bases role base (List.mem_of_mem_filter own) with stands | aside
      · exact renders_of_stands laid among stands
      · obtain ⟨token, written, trivia, rfl⟩ := aside
        -- A comment does not count as a base, and besides comments there are only joins.
        refine renders_of_join laid among written ?_
        cases symbol : token.symbol with
        | lineJoin => rfl
        | comment => simp [Token.triviaNode, symbol, Node.isComment, Node.kind] at counts
        | _ => simp [symbol, Symbol.isTrivia] at trivia
  exact List.forall₂_map_right_iff.mpr (List.forall₂_same.mpr each)

end

/-- A class of the outline of a tree is that of a definition in it. -/
theorem exists_of_mem_classes {owner : ClassOutline} (member : owner ∈ (treeOutline source tree).classes) :
    ∃ definition span notes, Within tree definition ∧ definition.kind = .classDefinition ∧
      classOutline source definition span = some (owner, notes) := by
  obtain ⟨piece, inside, listed⟩ := ModuleOutline.mem_classes_foldr member
  obtain ⟨statement, part, rfl⟩ := List.mem_map.mp inside
  obtain ⟨definition, found⟩ := exists_definitionOf (.inr (List.ne_nil_of_mem listed))
  have top : Within tree tree := .refl
  rw [statementOutline_of_definitionOf found, definitionOutline] at listed
  split at listed
  · split at listed <;> cases listed
  · rename_i kind
    split at listed
    · rename_i outline notes outlined
      obtain rfl := List.mem_singleton.mp listed
      exact ⟨definition, statement, notes, definitionOf_within (top.named part) found, kind, outlined⟩
    · cases listed
  · cases listed

/-- The texts of the outline of a tree render parts of it. -/
theorem rendersTexts (parsed : parse source = some tree) : RendersTexts source tree (treeOutline source tree) := by
  refine ⟨fun function lists => ?_, fun owner member => ?_, ?_⟩
  · obtain ⟨definition, span, within, kind, outlined, _⟩ := defines_of_lists lists
    exact ⟨definition, span, within, kind, outlined, rendersTypes parsed within kind outlined⟩
  · obtain ⟨definition, span, notes, within, kind, outlined⟩ := exists_of_mem_classes member
    refine ⟨definition, span, notes, within, kind, outlined, ?_⟩
    obtain ⟨name, _, same⟩ := Option.map_eq_some_iff.mp outlined
    rw [← (Prod.mk.inj same).1]
    exact forall₂_renders_derived parsed within kind
  · rw [imports_treeOutline, List.forall₂_map_right_iff, List.forall₂_same]
    intro statement member
    obtain ⟨inside, kind⟩ := List.mem_filter.mp member
    exact renders_of_import parsed inside (of_decide_eq_true kind)

end Python

namespace Script

/-- A text renders a stretch of a source: it is what the stretch becomes on one line. -/
def Source.Renders (source : Source) (span : Span) (text : String) : Prop :=
  ∃ covered, slice source.lines span = some covered ∧ Squeezes covered text.toList

/-- A text renders the type of a note: it is what the type without the colon before it becomes on one line. -/
def Source.RendersType (source : Source) (note : TypeNote) (text : String) : Prop :=
  ∃ span covered, (note.inner.bind Node.span <|> note.span) = some span ∧ slice source.lines span = some covered ∧
    Squeezes (trim ((trim covered).dropWhile (· == ':'))) text.toList

/-- A text renders a default value: it is spelled like the literal or the name, or it renders the source. -/
inductive Source.RendersDefault (source : Source) (value : Node) : String → Prop where
  /-- A literal is spelled as the tree tells. -/
  | literal {text : String} (spelled : value.literalText = some text) : RendersDefault source value text
  /-- A name is the one in the tree. -/
  | name {text : String} (other : value.literalText = none) (kind : value.kind = "Identifier")
    (named : value.nameText = some text) : RendersDefault source value text
  /-- Anything else renders its stretch of the source. -/
  | source {span : Span} {text : String} (other : value.literalText = none)
    (unnamed : value.kind = "Identifier" → value.nameText = none) (located : value.span = some span)
    (renders : source.Renders span text) : RendersDefault source value text
  /-- A stretch that does not exist has no text. -/
  | missing (other : value.literalText = none) (unnamed : value.kind = "Identifier" → value.nameText = none)
    (absent : ∀ span, value.span = some span → slice source.lines span = none) : RendersDefault source value ""

/-- A text renders a base class: it is its name, or it renders the source. -/
inductive Source.RendersBase (source : Source) (base : Node) : String → Prop where
  /-- A name is the one in the tree, on one line. -/
  | name {name text : String} (kind : base.kind = "Identifier") (named : base.nameText = some name)
    (collapsed : text.toList = collapse name.toList) : RendersBase source base text
  /-- Anything else renders its stretch of the source. -/
  | source {span : Span} {text : String} (other : base.kind ≠ "Identifier") (located : base.span = some span)
    (renders : source.Renders span text) : RendersBase source base text

/-- A text renders a parameter: it is its name, behind dots if it takes all remaining values, and in front of its
default values if it has some. -/
inductive Source.RendersEntry (source : Source) : Pattern → String → Prop where
  /-- A single name is the one in the tree. -/
  | identifier (id : Identifier) : RendersEntry source (.identifier id) id.name
  /-- A default value stands behind an equals sign. -/
  | withDefault {left : Pattern} {right : Node} {entry text : String} (inner : RendersEntry source left entry)
    (value : source.RendersDefault right text) : RendersEntry source (.withDefault left right) (entry ++ "=" ++ text)
  /-- Dots stand in front of what takes all remaining values. -/
  | rest {argument : Pattern} {type : Option TypeNote} {entry : String} (inner : RendersEntry source argument entry) :
    RendersEntry source (.rest argument type) ("..." ++ entry)
  /-- A parameter that is a property too is listed like any other. -/
  | property {parameter : Pattern} {entry : String} (inner : RendersEntry source parameter entry) :
    RendersEntry source (.property parameter) entry

/-- What is noted of the types in a parameter, from the outside inward. -/
def Pattern.notes : Pattern → List TypeNote
  | .identifier id => id.type.toList
  | .withDefault left _ => left.notes
  | .rest argument type => type.toList ++ argument.notes
  | .property parameter => parameter.notes
  | .other => []

/-- The types and default values of a function render those of its definition. -/
structure Source.RendersParameters (source : Source) (definition : Function) (function : FunctionOutline) : Prop where
  /-- Parameters are listed with their default values. -/
  entries : ∀ entry ∈ function.parameters, ∃ parameter ∈ definition.parameters, source.RendersEntry parameter entry
  /-- A type noted for an entry renders a note in a parameter with this entry. -/
  types : ∀ name text, function.annotations.find? name = some text → ∃ parameter ∈ definition.parameters,
    source.entry parameter = some name ∧ ∃ note ∈ parameter.notes, source.RendersType note text
  /-- The type of the result renders the note about it. -/
  returns : ∀ text ∈ function.returns, ∃ note ∈ definition.returns, source.RendersType note text

/-- The texts of an outline render parts of its tree. -/
structure Source.RendersTexts (source : Source) (tree : SyntaxTree) (listed : ModuleOutline) : Prop where
  /-- Functions and methods have the types and default values of definitions in the tree. -/
  functions : ∀ function, listed.Lists function → ∃ node ∈ tree.body, ∃ statement definition,
    Statement.decode .outer node = .ok statement ∧ statement.Holds definition ∧
    source.Outlines definition function ∧ source.RendersParameters definition function
  /-- Classes have the bases of definitions in the tree. -/
  classes : ∀ owner ∈ listed.classes, ∃ node ∈ tree.body, ∃ statement definition,
    Statement.decode .outer node = .ok statement ∧ statement.HoldsClass definition ∧
    source.OutlinesClass definition owner ∧
    ∀ text ∈ owner.bases, ∃ base ∈ definition.base, source.RendersBase base text

variable {source : Source}

/-- The text of a stretch on one line renders it. -/
theorem Source.renders_of_collapsed {span : Span} {text : String} (found : source.collapsed span = some text) :
    source.Renders span text := by
  obtain ⟨covered, cut, rfl⟩ := Option.map_eq_some_iff.mp found
  refine ⟨covered, cut, ?_⟩
  rw [String.toList_ofList]
  exact squeezes_collapse covered

/-- The text of a note about a type renders it. -/
theorem Source.rendersType {note : TypeNote} {text : String} (found : source.typeText note = some text) :
    source.RendersType note text := by
  simp only [Source.typeText, Option.bind_eq_bind, Option.bind_eq_some_iff] at found
  obtain ⟨span, chosen, covered, cut, found⟩ := found
  split at found
  · cases found
  · cases found
    refine ⟨span, covered, chosen, cut, ?_⟩
    rw [String.toList_ofList]
    exact squeezes_collapse _

/-- The text of a default value renders it. -/
theorem Source.rendersDefault (source : Source) (value : Node) :
    source.RendersDefault value (source.defaultText value) := by
  cases literal : value.literalText with
  | some text =>
    have same : source.defaultText value = text := by simp [Source.defaultText, literal]
    exact same ▸ .literal literal
  | none =>
    cases named : if value.kind == "Identifier" then value.nameText else none with
    | some text =>
      have same : source.defaultText value = text := by
        simp only [Source.defaultText, literal, named]
        rfl
      obtain ⟨kind, own⟩ := Option.ite_none_right_eq_some.mp named
      exact same ▸ .name literal (beq_iff_eq.mp kind) own
    | none =>
      have unnamed : value.kind = "Identifier" → value.nameText = none := fun kind => by simpa [kind] using named
      have same : source.defaultText value = (value.span.bind source.collapsed).getD "" := by
        simp only [Source.defaultText, literal, named]
        rfl
      cases found : value.span.bind source.collapsed with
      | some text =>
        obtain ⟨span, located, written⟩ := Option.bind_eq_some_iff.mp found
        rw [same, found]
        exact .source literal unnamed located (renders_of_collapsed written)
      | none =>
        rw [same, found]
        exact .missing literal unnamed fun span located =>
          Option.map_eq_none_iff.mp (Option.bind_eq_none_iff.mp found span located)

/-- The name of a base class renders it. -/
theorem Source.rendersBase {base : Node} {text : String} (found : source.baseName base = some text) :
    source.RendersBase base text := by
  unfold Source.baseName at found
  split at found
  · rename_i kind
    obtain ⟨name, named, rfl⟩ := Option.map_eq_some_iff.mp found
    exact .name (beq_iff_eq.mp kind) named String.toList_ofList
  · rename_i kind
    obtain ⟨span, located, found⟩ := Option.bind_eq_some_iff.mp found
    exact .source (by simpa using kind) located (renders_of_collapsed found)

/-- A parameter is rendered by what it is listed as. -/
theorem Source.rendersEntry {parameter : Pattern} {entry : String} {type : Option String}
    (listed : source.parameter parameter = some (entry, type)) : source.RendersEntry parameter entry := by
  induction parameter generalizing entry type with
  | identifier id =>
    cases listed
    exact .identifier id
  | withDefault left right ih =>
    obtain ⟨inner, found, same⟩ := Option.map_eq_some_iff.mp listed
    cases same
    exact .withDefault (ih found) (source.rendersDefault right)
  | rest argument note ih =>
    obtain ⟨inner, found, same⟩ := Option.map_eq_some_iff.mp listed
    cases same
    exact .rest (ih found)
  | property inner ih => exact .property (ih listed)
  | other => cases listed

/-- What a parameter carries is the type of a note in it. -/
theorem Source.exists_note_of_carries {parameter : Pattern} {text : String} (carries : source.Carries parameter text) :
    ∃ note ∈ parameter.notes, source.RendersType note text := by
  induction carries with
  | identifier noted written => exact ⟨_, by simp [Pattern.notes, noted], rendersType written⟩
  | rest noted written => exact ⟨_, by simp [Pattern.notes, noted], rendersType written⟩
  | withDefault _ ih => exact ih
  | argument _ _ ih => exact ih.imp fun note same => ⟨List.mem_append_right _ same.1, same.2⟩
  | property _ ih => exact ih

/-- The types and default values of a definition are rendered by those of its function. -/
theorem Source.rendersParameters {definition : Function} {function : FunctionOutline}
    (outlines : source.Outlines definition function) : source.RendersParameters definition function := by
  have listed := (annotatesFrom_of_outlines outlines).listed
  obtain ⟨name, isExpression, span, isExported, rfl⟩ := outlines
  refine ⟨fun entry member => ?_, fun name text noted => ?_, fun text told => ?_⟩
  · rw [listed] at member
    obtain ⟨parameter, among, same⟩ := List.mem_filterMap.mp member
    obtain ⟨⟨_, type⟩, found, rfl⟩ := Option.map_eq_some_iff.mp same
    exact ⟨parameter, among, rendersEntry found⟩
  · obtain ⟨parameter, among, same⟩ := exists_of_noted rfl noted
    exact ⟨parameter, among, Option.map_eq_some_iff.mpr ⟨_, same, rfl⟩,
      exists_note_of_carries ((source.carries_iff same text).mpr rfl)⟩
  · simp only [Source.function, FunctionOutline.foldl_addParameter] at told
    obtain ⟨note, noted, written⟩ := Option.bind_eq_some_iff.mp told
    exact ⟨note, noted, rendersType written⟩

/-- The texts of the outline of a tree render parts of it. -/
theorem rendersTexts (text : List Char) (docWindow : Nat) (tree : SyntaxTree) :
    Source.RendersTexts ⟨sourceLines text, docWindow⟩ tree (outline text docWindow tree) := by
  refine ⟨fun function lists => ?_, fun owner member => ?_⟩
  · obtain ⟨node, inside, statement, definition, reads, held, outlines, _⟩ := defines_of_lists lists
    exact ⟨node, inside, statement, definition, reads, held, outlines, Source.rendersParameters outlines⟩
  · obtain ⟨piece, inside, listed⟩ := ModuleOutline.mem_classes_foldr member
    obtain ⟨node, among, rfl⟩ := List.mem_map.mp inside
    unfold Source.node at listed
    split at listed
    · rename_i statement reads
      obtain ⟨definition, held, outlines⟩ := Source.exists_of_mem_classes listed
      refine ⟨node, among, statement, definition, reads, held, outlines, fun text base => ?_⟩
      obtain ⟨span, isExported, rfl⟩ := outlines
      obtain ⟨node, own, named⟩ := Option.bind_eq_some_iff.mp (Option.mem_toList.mp base)
      exact ⟨node, own, Source.rendersBase named⟩
    · cases listed

end Script

/-- The types, base classes and imports of an accepted source, and the types, base classes and default values of every
tree of a source, render stretches of the source: they stand on one line, and they read like the source exactly when
the stretch fits on one line. -/
theorem outline_renders (source : List Char) :
    (∀ listed, Python.outline source = .ok listed →
      ∃ tree, Python.parse source = some tree ∧ Python.RendersTexts source tree listed) ∧
    ∀ (docWindow : Nat) (tree : Script.SyntaxTree),
      Script.Source.RendersTexts ⟨Script.sourceLines source, docWindow⟩ tree (Script.outline source docWindow tree) := by
  refine ⟨fun listed accepted => ?_, Script.rendersTexts source⟩
  obtain ⟨tree, parsed, _, rfl⟩ := Python.outline_eq_ok.mp accepted
  exact ⟨tree, parsed, Python.rendersTexts parsed⟩

/-- Two spaces in a literal become one. -/
theorem outline_renders_literal :
    let source := "def f(x: Literal[\"a  b\"]):\n    pass\n".toList
    ∃ listed, Python.outline source = .ok listed ∧
      (listed.functions.map fun function => function.annotations.find? "x") = [some "Literal[\"a b\"]"] ∧
      ∃ tree, Python.parse source = some tree ∧ Python.RendersTexts source tree listed := by
  intro source
  have types : (Python.outline source).toOption.map (fun listed =>
      listed.functions.map fun function => function.annotations.find? "x") = some [some "Literal[\"a b\"]"] := by
    decide +kernel
  cases accepted : Python.outline source with
  | error failure => simp [accepted, Except.toOption] at types
  | ok listed =>
    simp only [accepted, Except.toOption, Option.map_some, Option.some.injEq] at types
    exact ⟨listed, rfl, types, (outline_renders source).1 listed accepted⟩

end SourceOutline
