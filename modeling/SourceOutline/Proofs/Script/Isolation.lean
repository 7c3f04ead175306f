import SourceOutline.Proofs.Script.Members
import SourceOutline.Script.Extract

/-! A node that does not decode leaves the records of all other nodes as they are. -/

namespace SourceOutline.Script

/-- The value decodes. -/
def decodes {α : Type} (decode : Json → Except DecodeError α) (value : Json) : Bool :=
  (decode value).isOk

/-- A node that is left out of an outline. -/
structure Deletion where
  /-- What stands in front of its kind in the note on it. -/
  owner : String
  /-- The node. -/
  node : Json
  /-- Why it does not decode. -/
  error : DecodeError

/-- The note on a node that is left out. -/
def Deletion.note (deletion : Deletion) : Omission :=
  undecoded deletion.owner deletion.node deletion.error

/-- The nodes of a list that do not decode, in order. -/
def deletions {α : Type} (owner : String) (decode : Json → Except DecodeError α)
    (nodes : List Json) : List Deletion :=
  nodes.filterMap fun node =>
    match decode node with
    | .ok _ => none
    | .error error => some ⟨owner, node, error⟩

/-- The class that a statement defines, on its own or inside an export. -/
def Statement.definedClass : Statement → Option Class
  | .classDef definition => some definition
  | .exportNamed (some inner) _ _ => inner.definedClass
  | .exportDefault (.classDef definition) _ => some definition
  | _ => none

/-- The members of a class that do not decode. -/
def Class.deletions (definition : Class) : List Deletion :=
  Script.deletions ((definition.name.getD anonymous) ++ ".") Member.decode definition.members

/-- The nodes that are left out of the outline of a statement: itself or members of its class. -/
def deletionsIn (node : Json) : List Deletion :=
  match Statement.decode .outer node with
  | .ok statement => (statement.definedClass.map Class.deletions).getD []
  | .error error => [⟨"", node, error⟩]

/-- A program without the nodes and class members that do not decode. -/
def tidy (body : List Json) : List Json :=
  (body.filter (decodes (Statement.decode .outer))).map
    (keepInStatement (decodes Member.decode) .outer)

/-- What decodes is all that is left when nothing else is kept, and then nothing is left out. -/
theorem decodeEach_filter {α : Type} (owner : String) (decode : Json → Except DecodeError α)
    (nodes : List Json) :
    decodeEach owner decode (nodes.filter (decodes decode)) = ((decodeEach owner decode nodes).1, []) := by
  induction nodes with
  | nil => rfl
  | cons node rest ih =>
    cases found : decode node with
    | ok value =>
      have kept : decodes decode node = true := by simp [decodes, found, Except.isOk, Except.toBool]
      rw [List.filter_cons_of_pos kept]
      simp [decodeEach, found, ih]
    | error error =>
      have dropped : ¬decodes decode node = true := by
        simp [decodes, found, Except.isOk, Except.toBool]
      rw [List.filter_cons_of_neg dropped]
      simp [decodeEach, found, ih]

/-- There is a note on each node that does not decode, in order. -/
theorem decodeEach_notes {α : Type} (owner : String) (decode : Json → Except DecodeError α)
    (nodes : List Json) :
    (decodeEach owner decode nodes).2 = (deletions owner decode nodes).map Deletion.note := by
  induction nodes with
  | nil => rfl
  | cons node rest ih =>
    simp only [decodeEach, deletions, List.filterMap_cons] at ih ⊢
    cases decode node with
    | ok value => exact ih
    | error error => exact congrArg _ ih

end SourceOutline.Script

namespace SourceOutline.ModuleOutline

/-- The outline without the notes on what was left out. -/
def withoutNotes (outline : ModuleOutline) : ModuleOutline := { outline with omissions := [] }

/-- Notes are dropped from each of two sources. -/
theorem withoutNotes_append (first second : ModuleOutline) :
    (first ++ second).withoutNotes = first.withoutNotes ++ second.withoutNotes := rfl

end SourceOutline.ModuleOutline

namespace SourceOutline.Script

variable {keep : Json → Bool}

/-- The outline of a class lists nothing else when only the members that decode are kept. -/
theorem Source.classDef_keepMembers (source : Source) (definition : Class) (span : Span) :
    source.classDef (definition.keepMembers (decodes Member.decode)) span =
      ((source.classDef definition span).1, []) := by
  simp only [Source.classDef, Class.keepMembers, decodeEach_filter]

/-- The notes on a class are those on the members that do not decode. -/
theorem Source.classDef_notes (source : Source) (definition : Class) (span : Span) :
    (source.classDef definition span).2 = definition.deletions.map Deletion.note := by
  simp only [Source.classDef, decodeEach_notes, Class.deletions, Class.name]

/-- There are no notes on variables. -/
theorem Source.variables_notes (source : Source) (exported : Option Span)
    (declaration : VariableDeclaration) :
    (source.variablesStatement exported declaration).omissions = [] := by
  have each : ∀ (isExported : Bool) (span : Option Span) (declarators : List Declarator),
      ((declarators.map (source.declarator isExported span)).foldr (· ++ ·)
        ({} : ModuleOutline)).omissions = [] := by
    intro isExported span declarators
    induction declarators with
    | nil => rfl
    | cons declarator rest ih =>
      rw [List.map_cons, List.foldr_cons, ModuleOutline.omissions_append, ih, List.append_nil]
      unfold Source.declarator
      split <;> rfl
  exact each _ _ _

/-- The notes on a statement are those on the members of its class that do not decode. -/
theorem Source.statement_notes (source : Source) (exported : Option Span) (statement : Statement) :
    (source.statement exported statement).omissions =
      ((statement.definedClass.map Class.deletions).getD []).map Deletion.note := by
  induction statement using Statement.definedClass.induct generalizing exported with
  | case1 definition => exact source.classDef_notes definition (exported.getD definition.span)
  | case2 inner names span ih =>
    simp only [Source.statement, ModuleOutline.omissions_append, List.append_nil, ih]
    rfl
  | case3 definition span => exact source.classDef_notes definition span
  | case4 statement noClass noNamed noDefault =>
    rcases statement with _ | declaration | definition | _ | ⟨_ | inner, names, span⟩ |
      ⟨_ | definition | _ | _, span⟩ | _
    · rfl
    · exact source.variables_notes exported declaration
    · exact absurd rfl (noClass definition)
    · rfl
    · rfl
    · exact absurd rfl (noNamed inner names span)
    · rfl
    · exact absurd rfl (noDefault definition span)
    · rfl
    · rfl
    · rfl

/-- A statement keeps its outline, apart from notes, when only the members that decode are kept. -/
theorem Source.statement_keepMembers (source : Source) (exported : Option Span)
    (statement : Statement) :
    source.statement exported (statement.keepMembers (decodes Member.decode)) =
      (source.statement exported statement).withoutNotes := by
  induction statement using Statement.keepMembers.induct generalizing exported with
  | case1 definition =>
    simp only [Statement.keepMembers, Source.statement, Source.classStatement,
      source.classDef_keepMembers]
    rfl
  | case2 inner names span ih =>
    simp only [Statement.keepMembers, Source.statement, ih, ModuleOutline.withoutNotes_append]
    rfl
  | case3 declaration span =>
    cases declaration with
    | classDef definition =>
      simp only [Statement.keepMembers, DefaultExport.keepMembers, Source.statement,
        Source.defaultStatement, source.classDef_keepMembers]
      rfl
    | _ => rfl
  | case4 statement noClass noNamed noDefault =>
    rcases statement with _ | declaration | definition | _ | ⟨_ | inner, names, span⟩ |
      ⟨declaration, span⟩ | _
    · rfl
    · have noNotes := source.variables_notes exported declaration
      simp only [Statement.keepMembers, Source.statement, ModuleOutline.withoutNotes, ← noNotes]
    · exact absurd rfl (noClass definition)
    · rfl
    · rfl
    · exact absurd rfl (noNamed inner names span)
    · exact absurd rfl (noDefault declaration span)
    · rfl

/-- The functions of a statement are the same whichever class members are kept. -/
theorem Source.statement_functions (source : Source) (exported : Option Span)
    (statement : Statement) :
    (source.statement exported (statement.keepMembers keep)).functions =
      (source.statement exported statement).functions := by
  induction statement using Statement.keepMembers.induct generalizing exported with
  | case1 definition => rfl
  | case2 inner names span ih =>
    simp only [Statement.keepMembers, Source.statement, ModuleOutline.functions_append, ih]
  | case3 declaration span => cases declaration <;> rfl
  | case4 statement noClass noNamed noDefault =>
    rw [Statement.keepMembers]
    exacts [noClass, noNamed, noDefault]

/-- The outline of a program is that of its first node followed by that of the others. -/
theorem outline_cons (text : List Char) (docWindow : Nat) (node : Json) (rest : List Json) :
    outline text docWindow ⟨node :: rest⟩ =
      Source.node ⟨sourceLines text, docWindow⟩ node ++ outline text docWindow ⟨rest⟩ := rfl

/-- The outline of two programs one after the other is made of their outlines. -/
theorem outline_append (text : List Char) (docWindow : Nat) (first second : List Json) :
    outline text docWindow ⟨first ++ second⟩ =
      outline text docWindow ⟨first⟩ ++ outline text docWindow ⟨second⟩ := by
  induction first with
  | nil => exact (ModuleOutline.empty_append _).symm
  | cons node rest ih =>
    rw [List.cons_append, outline_cons, ih, outline_cons, ModuleOutline.append_assoc]

/-- The first node of a program is tidied when it decodes. -/
theorem tidy_cons_of_decodes {node : Json} (rest : List Json)
    (fine : decodes (Statement.decode .outer) node = true) :
    tidy (node :: rest) = keepInStatement (decodes Member.decode) .outer node :: tidy rest := by
  rw [tidy, List.filter_cons_of_pos fine, List.map_cons]
  rfl

/-- The first node of a program is deleted when it does not decode. -/
theorem tidy_cons_of_not_decodes {node : Json} (rest : List Json)
    (broken : decodes (Statement.decode .outer) node = false) : tidy (node :: rest) = tidy rest := by
  rw [tidy, List.filter_cons_of_neg (by simp [broken])]
  rfl

/-- A node that does not decode leaves a note and no record. -/
theorem Source.node_of_not_decodes (source : Source) {node : Json}
    (broken : decodes (Statement.decode .outer) node = false) :
    (source.node node).withoutNotes = {} := by
  unfold Source.node
  cases found : Statement.decode .outer node with
  | ok statement => simp [decodes, found, Except.isOk, Except.toBool] at broken
  | error error => rfl

/-- A node keeps its outline, apart from notes, when only the members that decode are kept. -/
theorem Source.node_keepInStatement (source : Source) {node : Json}
    (fine : decodes (Statement.decode .outer) node = true) :
    source.node (keepInStatement (decodes Member.decode) .outer node) =
      (source.node node).withoutNotes := by
  unfold Source.node
  rw [Statement.decode_keepInStatement]
  cases found : Statement.decode .outer node with
  | error error => simp [decodes, found, Except.isOk, Except.toBool] at fine
  | ok statement => exact source.statement_keepMembers none statement

/-- The notes on a node are those on what is left out of it. -/
theorem Source.node_notes (source : Source) (node : Json) :
    (source.node node).omissions = (deletionsIn node).map Deletion.note := by
  unfold Source.node deletionsIn
  cases Statement.decode .outer node with
  | ok statement => exact source.statement_notes none statement
  | error error => rfl

/-- The functions of a node are the same whichever class members are kept. -/
theorem Source.node_functions (source : Source) (node : Json) :
    (source.node (keepInStatement keep .outer node)).functions = (source.node node).functions := by
  unfold Source.node
  rw [Statement.decode_keepInStatement]
  cases Statement.decode .outer node with
  | error error => rfl
  | ok statement => exact source.statement_functions none statement

/-- Nodes are outlined one by one: what does not decode leaves a note and changes nothing else. -/
theorem outline_isolates_nodes (text : List Char) (docWindow : Nat) :
    (∀ first second : List Json,
      let front := outline text docWindow ⟨first⟩
      let back := outline text docWindow ⟨second⟩
      outline text docWindow ⟨first ++ second⟩ =
        { functions := front.functions ++ back.functions
          classes := front.classes ++ back.classes
          imports := front.imports ++ back.imports
          exports := front.exports ++ back.exports
          omissions := front.omissions ++ back.omissions }) ∧
    (∀ body : List Json,
      let whole := outline text docWindow ⟨body⟩
      let decoding := body.filter (decodes (Statement.decode .outer))
      whole.withoutNotes = (outline text docWindow ⟨decoding⟩).withoutNotes ∧
      whole.withoutNotes = outline text docWindow ⟨tidy body⟩ ∧
      whole.omissions = (body.flatMap deletionsIn).map Deletion.note) ∧
    (∀ (keep : Json → Bool) (body : List Json),
      (outline text docWindow ⟨body.map (keepInStatement keep .outer)⟩).functions =
        (outline text docWindow ⟨body⟩).functions) := by
  refine ⟨outline_append text docWindow, fun body => ⟨?_, ?_, ?_⟩, fun keep body => ?_⟩
  · induction body with
    | nil => rfl
    | cons node rest ih =>
      rw [outline_cons, ModuleOutline.withoutNotes_append, ih]
      cases fine : decodes (Statement.decode .outer) node with
      | true =>
        rw [List.filter_cons_of_pos fine, outline_cons, ModuleOutline.withoutNotes_append]
      | false =>
        rw [List.filter_cons_of_neg (by simp [fine]), Source.node_of_not_decodes _ fine]
        exact ModuleOutline.empty_append _
  · induction body with
    | nil => rfl
    | cons node rest ih =>
      rw [outline_cons, ModuleOutline.withoutNotes_append, ih]
      cases fine : decodes (Statement.decode .outer) node with
      | true => rw [tidy_cons_of_decodes rest fine, outline_cons, Source.node_keepInStatement _ fine]
      | false =>
        rw [tidy_cons_of_not_decodes rest fine, Source.node_of_not_decodes _ fine]
        exact ModuleOutline.empty_append _
  · induction body with
    | nil => rfl
    | cons node rest ih =>
      rw [outline_cons, ModuleOutline.omissions_append, ih, Source.node_notes, List.flatMap_cons,
        List.map_append]
  · induction body with
    | nil => rfl
    | cons node rest ih =>
      rw [List.map_cons, outline_cons, outline_cons, ModuleOutline.functions_append,
        ModuleOutline.functions_append, ih, Source.node_functions]

end SourceOutline.Script
