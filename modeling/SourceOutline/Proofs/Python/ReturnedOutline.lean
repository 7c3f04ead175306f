import SourceOutline.Proofs.Outline.Parameters
import SourceOutline.Proofs.Python.Roundtrip
import SourceOutline.Proofs.Python.Twins

/-! The outline of a source with carriage returns at its line ends: the same as that of the source, apart
from texts that hold line breaks. -/

namespace SourceOutline.Python

open DocComment Text

/-- The description in a source and the one in its copy, for a documentation that says the given signs. -/
structure Described (signs : List Sign) (description copy : Option String) : Prop where
  /-- In the source the signs stand for their own text. -/
  text : description = (cleanText (signs.flatMap Sign.text)).map String.ofList
  /-- In the copy line breaks have carriage returns, and joins are not undone. -/
  returned : copy = (cleanText (signs.flatMap Sign.returned)).map String.ofList
  /-- The descriptions are the same exactly when the signs are quiet. -/
  same : copy = description ↔ IsQuiet signs

/-- Every documentation is described by its signs. -/
theorem described (signs : List Sign) :
    Described signs (ofDocstring (signs.flatMap Sign.text)).description
      (ofDocstring (signs.flatMap Sign.returned)).description := by
  refine ⟨rfl, rfl, ?_⟩
  rw [← cleanText_returned_iff]
  refine ⟨fun same => ?_, fun same => congrArg (Option.map String.ofList) same⟩
  exact Option.map_injective (fun _ _ => String.ofList_injective) same

/-- A node somewhere in a tree. -/
inductive Inside (tree : Node) : Node → Prop where
  /-- The tree itself. -/
  | root : Inside tree tree
  /-- A part of a node in the tree. -/
  | part {above node : Node} (within : Inside tree above) (member : node ∈ above.children) : Inside tree node

/-- The child of a node in a role is in the tree when the node is. -/
theorem Inside.child? {tree node child : Node} {role : Role} (inside : Inside tree node)
    (found : node.child? role = some child) : Inside tree child :=
  .part inside (List.mem_of_find?_eq_some found)

/-- The definition below the decorators of a node is in the tree when the node is. -/
theorem Inside.definitionOf {tree node definition : Node} (inside : Inside tree node)
    (found : Python.definitionOf node = some definition) : Inside tree definition := by
  unfold Python.definitionOf at found
  split at found
  · exact Option.some.inj found ▸ inside
  · exact Option.some.inj found ▸ inside
  · exact inside.child? found
  · cases found

/-- A function of a source and the function in its place in the outline of the copy. -/
structure FunctionReturned (source : List Char) (tree : Node) (function copy : FunctionOutline) : Prop where
  /-- The name is the same. -/
  name : copy.name = function.name
  /-- Parameters are the same up to carriage returns. -/
  parameters : copy.parameters = function.parameters.map returnedText
  /-- The types of the parameters are the same. -/
  annotations : copy.annotations = function.annotations
  /-- The type of the result is the same. -/
  returns : copy.returns = function.returns
  /-- There is a definition in the tree whose documentation the descriptions come from. -/
  described : ∃ definition span, Inside tree definition ∧ functionOutline source definition span = some function ∧
    Described (docSigns source definition) function.description copy.description
  /-- The tags are the same. -/
  tags : copy.tags = function.tags
  /-- Both are asynchronous or not. -/
  isAsync : copy.isAsync = function.isAsync
  /-- Both are expressions or not. -/
  isExpression : copy.isExpression = function.isExpression
  /-- Both are exported or not. -/
  isExported : copy.isExported = function.isExported
  /-- Both start on the same line. -/
  line : copy.line = function.line
  /-- Without carriage returns the texts are the same. -/
  text : copy.text.toList.filter (· ≠ '\r') = function.text.toList

/-- A class of a source and the class in its place in the outline of the copy. -/
structure ClassReturned (source : List Char) (tree : Node) (owner copy : ClassOutline) : Prop where
  /-- The name is the same. -/
  name : copy.name = owner.name
  /-- There is a definition in the tree whose documentation the descriptions come from. -/
  described : ∃ definition span, Inside tree definition ∧
    (classOutline source definition span).map Prod.fst = some owner ∧
    Described (docSigns source definition) owner.description copy.description
  /-- The tags are the same. -/
  tags : copy.tags = owner.tags
  /-- The classes that it is derived from are the same. -/
  bases : copy.bases = owner.bases
  /-- The methods correspond. -/
  methods : List.Forall₂ (FunctionReturned source tree) owner.methods copy.methods
  /-- The properties are the same. -/
  properties : copy.properties = owner.properties
  /-- Both are exported or not. -/
  isExported : copy.isExported = owner.isExported
  /-- Both start on the same line. -/
  line : copy.line = owner.line
  /-- Without carriage returns the texts are the same. -/
  text : copy.text.toList.filter (· ≠ '\r') = owner.text.toList

/-- The outline of a source and the outline of the copy. -/
structure OutlineReturned (source : List Char) (tree : Node) (outlined copy : ModuleOutline) : Prop where
  /-- The functions correspond. -/
  functions : List.Forall₂ (FunctionReturned source tree) outlined.functions copy.functions
  /-- The classes correspond. -/
  classes : List.Forall₂ (ClassReturned source tree) outlined.classes copy.classes
  /-- The imports are the same. -/
  imports : copy.imports = outlined.imports
  /-- The exported names are the same. -/
  exports : copy.exports = outlined.exports
  /-- The same parts are left out. -/
  omissions : copy.omissions = outlined.omissions

/-- Nothing corresponds to nothing. -/
theorem OutlineReturned.empty (source : List Char) (tree : Node) : OutlineReturned source tree {} {} :=
  ⟨.nil, .nil, rfl, rfl, rfl⟩

/-- Outlines one after the other correspond when each of them does. -/
theorem OutlineReturned.append {source : List Char} {tree : Node} {first copy second copy' : ModuleOutline}
    (front : OutlineReturned source tree first copy) (back : OutlineReturned source tree second copy') :
    OutlineReturned source tree (first ++ second) (copy ++ copy') where
  functions := List.rel_append front.functions back.functions
  classes := List.rel_append front.classes back.classes
  imports := congrArg₂ (· ++ ·) front.imports back.imports
  exports := congrArg₂ (· ++ ·) front.exports back.exports
  omissions := congrArg₂ (· ++ ·) front.omissions back.omissions

section

variable {source : List Char} {given : List Token} {tree definition definition' span span' : Node}
  (stands : ∀ token ∈ given, token.Stands (withReturns source)) (plain : '\r' ∉ source)

include stands plain

/-- The function of the copy is the one of the source. -/
theorem functionOutline_twin (twin : Twin source given definition definition')
    (spans : Twin source given span span')
    (defines : span.kind.defines = true) (named : definition.kind.isNamed = true)
    (inside : Inside tree definition) :
    Option.Rel (FunctionReturned source tree) (functionOutline source definition span)
      (functionOutline (withReturns source) definition' span') := by
  have copied := (transcribes_twin stands).functionOutline_eq twin named span span'
  rw [copied]
  cases found : functionOutline source definition span with
  | none => exact .none
  | some function =>
    have body := described (docSigns source definition)
    obtain ⟨name, _, isFunction⟩ := Option.map_eq_some_iff.mp found
    simp only [FunctionOutline.foldl_addParameter] at isFunction
    refine .some ⟨rfl, rfl, rfl, rfl, ⟨definition, span, inside, found, ?_⟩, ?_, rfl, rfl, rfl, ?_, ?_⟩
    all_goals subst isFunction
    · simp only [twin.bodyDoc_eq stands, bodyDoc_eq]
      exact body
    · simp only [twin.bodyDoc_eq stands, bodyDoc_eq]
      rfl
    · exact twin.line_eq
    · simp only [String.toList_ofList]
      exact spans.dedented_eq stands plain defines

/-- The method of the copy is the one of the source. -/
theorem methodOutline_twin (twin : Twin source given span span') (inside : Inside tree span) :
    List.Forall₂ (FunctionReturned source tree) (methodOutline source span).1
        (methodOutline (withReturns source) span').1 ∧
      (methodOutline (withReturns source) span').2 = (methodOutline source span).2 := by
  have definitions := definitionOf_twin twin
  unfold methodOutline
  cases found : definitionOf span with
  | none =>
    rw [found] at definitions
    rw [eq_none_of_rel_none definitions]
    exact ⟨.nil, rfl⟩
  | some definition =>
    rw [found] at definitions
    obtain ⟨definition', same, definitions⟩ := exists_of_rel_some definitions
    simp only [same, definitions.kind, definitions.line_eq]
    split
    · rename_i isFunction
      have function := functionOutline_twin stands plain definitions twin (defines_of_definitionOf found)
        (by rw [beq_iff_eq.mp isFunction]; rfl) (inside.definitionOf found)
      generalize functionOutline source definition span = outlined,
        functionOutline (withReturns source) definition' span' = copy at function ⊢
      cases function with
      | none => exact ⟨.nil, rfl⟩
      | some function => exact ⟨.cons function .nil, rfl⟩
    · exact ⟨.nil, rfl⟩

/-- The methods of the copy are those of the source. -/
theorem methodOutlines_twin {members members' : List Node}
    (twins : List.Forall₂ (Twin source given) members members')
    (inside : ∀ member ∈ members, Inside tree member) :
    List.Forall₂ (FunctionReturned source tree) ((members.map (methodOutline source)).flatMap Prod.fst)
        ((members'.map (methodOutline (withReturns source))).flatMap Prod.fst) ∧
      (members'.map (methodOutline (withReturns source))).flatMap Prod.snd =
        (members.map (methodOutline source)).flatMap Prod.snd := by
  induction twins with
  | nil => exact ⟨.nil, rfl⟩
  | cons first rest ih =>
    obtain ⟨here, later⟩ := List.forall_mem_cons.mp inside
    obtain ⟨methods, notes⟩ := methodOutline_twin stands plain first here
    obtain ⟨methods', notes'⟩ := ih later
    simp only [List.map_cons, List.flatMap_cons]
    exact ⟨List.rel_append methods methods', by rw [notes, notes']⟩

/-- The class of the copy is the one of the source. -/
theorem classOutline_twin (twin : Twin source given definition definition')
    (spans : Twin source given span span')
    (defines : span.kind.defines = true) (named : definition.kind.isNamed = true)
    (inside : Inside tree definition) :
    Option.Rel (fun found found' => ClassReturned source tree found.1 found'.1 ∧ found'.2 = found.2)
      (classOutline source definition span) (classOutline (withReturns source) definition' span') := by
  have names := twin.child? .name
  have own := twin.spelled.formed.named (by rw [twin.kind]; exact named)
  cases name : definition.child? .name with
  | none =>
    rw [name] at names
    rw [classOutline, classOutline, name, eq_none_of_rel_none names]
    exact .none
  | some target =>
    rw [name] at names
    obtain ⟨target', same, targets⟩ := exists_of_rel_some names
    have isName := targets.kind.symm.trans (own target' same)
    have body := described (docSigns source definition)
    have members : ∀ member ∈ ((definition.child? .body).map Node.namedChildren).getD [], Inside tree member := by
      intro member among
      cases block : definition.child? .body with
      | none => simp [block] at among
      | some block' =>
        rw [block] at among
        exact .part (inside.child? block) (List.mem_filter.mp among).1
    obtain ⟨methods, notes⟩ := methodOutlines_twin stands plain (twin.childParts .body) members
    have bases : baseNames (withReturns source) definition' = baseNames source definition := by
      refine map_eq_of_rel (fun _ _ base => base.collapsed_eq) (filter_rel ?_ (twin.childParts .bases))
      intro base base' bases
      rw [Node.isComment, Node.isComment, bases.kind]
    obtain ⟨found, listed⟩ : ∃ found, classOutline source definition span = some found := ⟨_, by
      rw [classOutline, name, Option.map_some]⟩
    rw [listed]
    rw [classOutline, name, Option.map_some, Option.some_inj] at listed
    rw [classOutline, same, Option.map_some]
    subst listed
    refine .some ⟨⟨?_, ⟨definition, span, inside, ?_, ?_⟩, ?_, ?_, ?_, rfl, rfl, ?_, ?_⟩, notes⟩
    · exact (targets.identifier_text stands isName).1
    · rw [classOutline, name, Option.map_some, Option.map_some]
    · simp only [twin.bodyDoc_eq stands, bodyDoc_eq]
      exact body
    · simp only [twin.bodyDoc_eq stands, bodyDoc_eq]
      rfl
    · exact bases
    · exact methods
    · exact twin.line_eq
    · simp only [String.toList_ofList]
      exact spans.dedented_eq stands plain defines

/-- The outline of a definition of the copy is that of the definition of the source. -/
theorem definitionOutline_twin (twin : Twin source given definition definition')
    (spans : Twin source given span span')
    (defines : span.kind.defines = true) (inside : Inside tree definition) :
    OutlineReturned source tree (definitionOutline source definition span)
      (definitionOutline (withReturns source) definition' span') := by
  unfold definitionOutline
  rw [twin.kind, twin.line_eq]
  split
  · rename_i kind
    have function := functionOutline_twin stands plain twin spans defines (by rw [kind]; rfl) inside
    generalize functionOutline source definition span = outlined,
      functionOutline (withReturns source) definition' span' = copy at function ⊢
    cases function with
    | none => exact ⟨.nil, .nil, rfl, rfl, rfl⟩
    | some function => exact ⟨.cons function .nil, .nil, rfl, rfl, rfl⟩
  · rename_i kind
    have owner := classOutline_twin stands plain twin spans defines (by rw [kind]; rfl) inside
    generalize classOutline source definition span = outlined,
      classOutline (withReturns source) definition' span' = copy at owner ⊢
    cases owner with
    | none => exact ⟨.nil, .nil, rfl, rfl, rfl⟩
    | some owner => exact ⟨.nil, .cons owner.1 .nil, rfl, rfl, owner.2⟩
  · exact .empty source tree

/-- The outline of a statement of the copy is that of the statement of the source. -/
theorem statementOutline_twin (twin : Twin source given span span') (inside : Inside tree span) :
    OutlineReturned source tree (statementOutline source span) (statementOutline (withReturns source) span') := by
  have definitions := twin.child? .definition
  unfold statementOutline
  rw [twin.kind, twin.collapsed_eq, twin.line_eq]
  split
  · rename_i kind
    exact definitionOutline_twin stands plain twin twin (by rw [kind]; rfl) inside
  · rename_i kind
    exact definitionOutline_twin stands plain twin twin (by rw [kind]; rfl) inside
  · rename_i kind
    cases found : span.child? .definition with
    | none =>
      rw [found] at definitions
      rw [eq_none_of_rel_none definitions]
      exact ⟨.nil, .nil, rfl, rfl, rfl⟩
    | some definition =>
      rw [found] at definitions
      obtain ⟨definition', same, definitions⟩ := exists_of_rel_some definitions
      rw [same]
      exact definitionOutline_twin stands plain definitions twin (by rw [kind]; rfl) (inside.child? found)
  · exact ⟨.nil, .nil, rfl, rfl, rfl⟩
  · exact .empty source tree

/-- The outline of the copy of a tree is that of the tree. -/
theorem treeOutline_twin {tree tree' : Node} (twin : Twin source given tree tree') :
    OutlineReturned source tree (treeOutline source tree) (treeOutline (withReturns source) tree') := by
  have inside : ∀ statement ∈ tree.namedChildren, Inside tree statement := fun statement member =>
    .part .root (List.mem_filter.mp member).1
  have twins := twin.namedChildren
  unfold treeOutline
  generalize tree.namedChildren = statements, tree'.namedChildren = statements' at inside twins ⊢
  induction twins with
  | nil => exact .empty source tree
  | cons first rest ih =>
    obtain ⟨here, later⟩ := List.forall_mem_cons.mp inside
    exact (statementOutline_twin stands plain first here).append (ih later)

end

/-- The copy of an accepted source with carriage returns at its line ends is accepted, and its outline is
that of the source: names, types, base classes, lines, imports and notes are the same; parameters and texts
are the same up to carriage returns, which only parameters that are patterns can hold; and a description is
the same exactly when its literals are quiet. -/
theorem outline_withReturns {source : List Char} {outlined : ModuleOutline} (plain : '\r' ∉ source)
    (extracted : outline source = .ok outlined) :
    ∃ tree copy, parse source = some tree ∧ outline (withReturns source) = .ok copy ∧
      OutlineReturned source tree outlined copy := by
  obtain ⟨tree, parsed, accepted, rfl⟩ := outline_eq_ok.mp extracted
  obtain ⟨tree', parsed', alike⟩ := parse_withReturns plain parsed
  obtain ⟨given, spelled, stands⟩ := exists_spelled parsed'
  have accepted' := checkStructure_withReturns accepted alike
  refine ⟨tree, _, parsed, outline_eq_ok.mpr ⟨tree', parsed', accepted', rfl⟩, ?_⟩
  exact treeOutline_twin stands plain ⟨alike, spelled⟩

/-- A description keeps the carriage return of every line it continues after. -/
theorem outline_withReturns_docstring :
    let source := "def f():\n    \"\"\"a\n    b\"\"\"\n".toList
    ∃ tree outlined copy, parse source = some tree ∧ outline source = .ok outlined ∧
      outline (withReturns source) = .ok copy ∧ OutlineReturned source tree outlined copy ∧
      outlined.functions.map (·.description) = [some "a\nb"] ∧
      copy.functions.map (·.description) = [some "a\r\nb"] := by
  intro source
  have described : (outline source).toOption.map (fun outlined => outlined.functions.map (·.description)) =
      some [some "a\nb"] := by
    decide +kernel
  have describedCopy : (outline (withReturns source)).toOption.map
      (fun copy => copy.functions.map (·.description)) = some [some "a\r\nb"] := by
    decide +kernel
  cases extracted : outline source with
  | error failure => simp [extracted, Except.toOption] at described
  | ok outlined =>
    obtain ⟨tree, copy, parsed, again, returned⟩ := outline_withReturns (by decide) extracted
    simp only [extracted, again, Except.toOption, Option.map_some, Option.some.injEq] at described describedCopy
    exact ⟨tree, outlined, copy, parsed, rfl, again, returned, described, describedCopy⟩

end SourceOutline.Python
