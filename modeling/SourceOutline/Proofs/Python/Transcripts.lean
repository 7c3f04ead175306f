import SourceOutline.Proofs.Outline.Parameters
import SourceOutline.Proofs.Python.Correspondence
import SourceOutline.Proofs.Python.Spelling
import SourceOutline.Python.Extract

/-! The outline of a function in a source and in a copy that changes the texts of patterns. -/

namespace SourceOutline.Python

/-- Nodes of a source and of a copy of it are related: they have the same text on one line, identifiers have the same
text, and the text of a pattern that has a default value is changed. -/
structure Transcribes (source text : List Char) (change : String → String) (related : Node → Node → Prop) : Prop where
  /-- Related nodes are of the same kind. -/
  kind : ∀ {node node'}, related node node' → node'.kind = node.kind
  /-- They are in the same role. -/
  role : ∀ {node node'}, related node node' → node'.role = node.role
  /-- Their children are related. -/
  children : ∀ {node node'}, related node node' → List.Forall₂ related node.children node'.children
  /-- They have the same text on one line. -/
  collapsed : ∀ {node node'}, related node node' → node'.collapsed text = node.collapsed source
  /-- Identifiers have the same text, which is not changed. -/
  identifier : ∀ {node node'}, related node node' → node.kind = .identifier →
    String.ofList (node'.text text) = String.ofList (node.text source) ∧
      change (String.ofList (node.text source)) = String.ofList (node.text source)
  /-- What is named has an identifier for a name. -/
  named : ∀ {node node'}, related node node' → node.kind.isNamed = true →
    ∀ name, node.child? .name = some name → name.kind = .identifier
  /-- A parameter with a default value but no type has a name or a pattern, the text of which is changed. -/
  pattern : ∀ {node node'}, related node node' → node.kind = .defaultParameter → node.child? .type = none ∧
    ∀ name name', node.child? .name = some name → related name name' → node'.child? .name = some name' →
      String.ofList (name'.text text) = change (String.ofList (name.text source))

namespace Transcribes

variable {source text : List Char} {change : String → String} {related : Node → Node → Prop}
  (copies : Transcribes source text change related) {node node' : Node}

include copies

/-- The named children of related nodes are related. -/
theorem namedChildren (pair : related node node') : List.Forall₂ related node.namedChildren node'.namedChildren :=
  filter_rel (fun _ _ pair => by rw [Node.isNamed, Node.isNamed, copies.kind pair]) (copies.children pair)

/-- The children of related nodes in one role are related. -/
theorem child? (pair : related node node') (role : Role) :
    Option.Rel related (node.child? role) (node'.child? role) :=
  find?_rel (fun _ _ pair => by rw [copies.role pair]) (copies.children pair)

/-- The parts of the children of related nodes in one role are related. -/
theorem childParts (pair : related node node') (role : Role) :
    List.Forall₂ related (((node.child? role).map Node.namedChildren).getD [])
      (((node'.child? role).map Node.namedChildren).getD []) := by
  have child := copies.child? pair role
  generalize node.child? role = part, node'.child? role = part' at child ⊢
  cases child with
  | none => exact .nil
  | some part => exact copies.namedChildren part

/-- The children of related nodes in a role have the same text on one line. -/
theorem map_collapsed_eq (pair : related node node') (role : Role) :
    (node'.child? role).map (Node.collapsed text) = (node.child? role).map (Node.collapsed source) := by
  have child := copies.child? pair role
  generalize node.child? role = part, node'.child? role = part' at child ⊢
  cases child with
  | none => rfl
  | some part => rw [Option.map_some, Option.map_some, copies.collapsed part]

/-- The definitions below the decorators of related nodes are related. -/
theorem definitionOf_rel (pair : related node node') :
    Option.Rel related (definitionOf node) (definitionOf node') := by
  unfold definitionOf
  rw [copies.kind pair]
  split
  · exact .some pair
  · exact .some pair
  · exact copies.child? pair .definition
  · exact .none

/-- The copy lists the parameters with changed texts, apart from the names of those that have a type. -/
theorem listedParameters_eq {parameters parameters' : List Node} (pairs : List.Forall₂ related parameters parameters') :
    listedParameters text parameters' = (listedParameters source parameters).map (Prod.map change id) ∧
      ∀ listed ∈ listedParameters source parameters, listed.2 ≠ none → change listed.1 = listed.1 := by
  induction pairs with
  | nil => exact ⟨rfl, by simp [listedParameters]⟩
  | @cons parameter parameter' later later' first rest ih =>
    have type := copies.map_collapsed_eq first .type
    -- A name that is listed in front of the others.
    have listed : ∀ {name name' : String} {type : Option String}, name' = change name →
        (type ≠ none → change name = name) →
        (name', type) :: listedParameters text later' =
            ((name, type) :: listedParameters source later).map (Prod.map change id) ∧
          ∀ listed ∈ (name, type) :: listedParameters source later, listed.2 ≠ none →
            change listed.1 = listed.1 := by
      rintro name name' type rfl typed
      exact ⟨by rw [List.map_cons, ih.1]; rfl, List.forall_mem_cons.mpr ⟨typed, ih.2⟩⟩
    have identifier : ∀ {node node' : Node}, related node node' → node.kind = .identifier →
        ∀ type : Option String, String.ofList (node'.text text) = change (String.ofList (node.text source)) ∧
          (type ≠ none → change (String.ofList (node.text source)) = String.ofList (node.text source)) := by
      intro node node' pair isName type
      obtain ⟨same, single⟩ := copies.identifier pair isName
      exact ⟨same.trans single.symm, fun _ => single⟩
    simp only [listedParameters, copies.kind first, parameterType, type]
    cases kind : parameter.kind with
    | identifier =>
      obtain ⟨same, typed⟩ := identifier first kind none
      exact listed same typed
    | typedParameter =>
      have targets := copies.namedChildren first
      simp only
      generalize parameter.namedChildren = inner, parameter'.namedChildren = inner' at targets ⊢
      cases targets with
      | nil => exact ih
      | cons target others =>
        simp only [copies.kind target]
        split
        · rename_i isName
          obtain ⟨same, typed⟩ := identifier target (beq_iff_eq.mp isName) _
          exact listed same typed
        · exact ⟨rfl, by simp⟩
    | defaultParameter =>
      have names := copies.child? first .name
      obtain ⟨untyped, changed⟩ := copies.pattern first kind
      simp only [untyped]
      cases name : parameter.child? .name with
      | none =>
        rw [name] at names
        rw [eq_none_of_rel_none names]
        exact ih
      | some target =>
        rw [name] at names
        obtain ⟨target', same, pair⟩ := exists_of_rel_some names
        rw [same]
        exact listed (changed target target' name pair same) fun typed => absurd rfl typed
    | typedDefaultParameter =>
      have names := copies.child? first .name
      simp only
      cases name : parameter.child? .name with
      | none =>
        rw [name] at names
        rw [eq_none_of_rel_none names]
        exact ih
      | some target =>
        rw [name] at names
        obtain ⟨target', same, pair⟩ := exists_of_rel_some names
        rw [same]
        have isName := copies.named first (by rw [kind]; rfl) target name
        obtain ⟨text, typed⟩ := identifier pair isName _
        exact listed text typed
    | listSplat | dictionarySplat | keywordSeparator => exact ⟨rfl, by simp⟩
    | _ => exact ih

/-- A function in the copy has the outline of that in the source, apart from changed parameters, its place, what it
says about itself, and its text. -/
theorem functionOutline_eq {definition definition' : Node} (pair : related definition definition')
    (named : definition.kind.isNamed = true) (span span' : Node) :
    functionOutline text definition' span' = (functionOutline source definition span).map fun function =>
      { function with
        parameters := function.parameters.map change
        line := definition'.line
        description := (bodyDoc text definition').description
        tags := (bodyDoc text definition').tags
        text := String.ofList (dedented text span') } := by
  have names := copies.child? pair .name
  cases name : definition.child? .name with
  | none =>
    rw [name] at names
    rw [functionOutline, functionOutline, name, eq_none_of_rel_none names]
    rfl
  | some target =>
    rw [name] at names
    obtain ⟨target', same, targets⟩ := exists_of_rel_some names
    obtain ⟨listed, single⟩ := copies.listedParameters_eq (copies.childParts pair .parameters)
    have types : typed ((listedParameters source (((definition.child? .parameters).map Node.namedChildren).getD [])).map
          (Prod.map change id)) =
        typed (listedParameters source (((definition.child? .parameters).map Node.namedChildren).getD [])) := by
      rw [typed, typed, List.filterMap_map]
      refine List.filterMap_congr fun parameter member => ?_
      obtain ⟨name, type⟩ := parameter
      cases type with
      | none => rfl
      | some type =>
        have unchanged := single _ member (by simp)
        simp only [Function.comp_apply, Prod.map, id, unchanged]
    have isAsync : (definition'.children.any fun part => part.kind == .asyncKeyword) =
        definition.children.any fun part => part.kind == .asyncKeyword :=
      any_rel (fun _ _ pair => by rw [copies.kind pair]) (copies.children pair)
    have isName := copies.named pair named target name
    simp only [functionOutline, name, same, Option.map_some, FunctionOutline.foldl_addParameter, listed, types,
      (copies.identifier targets isName).1, copies.map_collapsed_eq pair, isAsync, List.nil_append, List.map_map]
    rfl

end Transcribes

end SourceOutline.Python
