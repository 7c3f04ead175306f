import Mathlib.Logic.Relation
import SourceOutline.Proofs.Json.Fields
import SourceOutline.Proofs.Outline.Parameters
import SourceOutline.Proofs.Text.Words
import SourceOutline.Python.Extract
import SourceOutline.Script.Extract

/-! The types noted for a function are those that its parameters carry in the source. -/

namespace SourceOutline

open Text

/-- The parameters of a function are the entries of those given in the source, and the types noted for
them are the texts that those carry. -/
structure AnnotatesFrom {π : Type} (function : FunctionOutline) (given : List π)
    (entry : π → Option String) (Carries : π → String → Prop) : Prop where
  /-- The parameters are listed in the order of the source. -/
  listed : function.parameters = given.filterMap entry
  /-- Types are noted for parameters only. -/
  named : ∀ name ∈ function.annotations.names, name ∈ function.parameters
  /-- No type is empty, and none has blanks around it or next to each other. -/
  tidy : ∀ name text, function.annotations.find? name = some text → text ≠ "" ∧ IsTidy text.toList
  /-- When all entries differ, the type noted for one is what its parameter carries. -/
  exact : function.parameters.Nodup → ∀ parameter ∈ given, ∀ name ∈ entry parameter, ∀ text,
    function.annotations.find? name = some text ↔ Carries parameter text ∧ text ≠ ""

/-- A pair of a parameter and its type stands for a listed parameter with a type. -/
theorem mem_typed_iff {listed : List (String × Option String)} {name text : String} :
    (name, text) ∈ typed listed ↔ (name, some text) ∈ listed ∧ text ≠ "" := by
  simp only [typed, List.mem_filterMap, Option.map_eq_some_iff, Option.filter_eq_some_iff]
  constructor
  · rintro ⟨⟨other, type⟩, member, found, ⟨rfl, nonempty⟩, same⟩
    cases same
    exact ⟨member, by simpa using nonempty⟩
  · rintro ⟨member, nonempty⟩
    exact ⟨_, member, text, ⟨rfl, by simpa using nonempty⟩, rfl⟩

/-- The names with types are among the listed ones, in the same order. -/
theorem typed_sublist (listed : List (String × Option String)) :
    (typed listed).map Prod.fst |>.Sublist (listed.map Prod.fst) := by
  induction listed with
  | nil => exact .slnil
  | cons parameter rest ih =>
    obtain ⟨name, type⟩ := parameter
    cases type with
    | none => exact ih.cons name
    | some text =>
      by_cases empty : text = ""
      · have dropped : typed ((name, some text) :: rest) = typed rest := by
          simp [typed, Option.filter, empty]
        exact dropped ▸ ih.cons name
      · have kept : typed ((name, some text) :: rest) = (name, text) :: typed rest := by
          simp [typed, Option.filter, empty]
        exact kept ▸ ih.cons_cons name

/-- A function with the given parameters added to it notes their types. -/
theorem annotatesFrom_foldl {π : Type} {given : List π} {full : π → Option (String × Option String)}
    {Carries : π → String → Prop} {start : FunctionOutline} (noParameters : start.parameters = [])
    (noTypes : start.annotations = .empty)
    (tidy : ∀ parameter name text, full parameter = some (name, some text) → IsTidy text.toList)
    (carries : ∀ parameter name type, full parameter = some (name, type) →
      ∀ text, Carries parameter text ↔ type = some text) :
    AnnotatesFrom
      ((given.filterMap full).foldl (fun outline listed => outline.addParameter listed.1 listed.2) start)
      given (fun parameter => (full parameter).map Prod.fst) Carries := by
  have types : ((given.filterMap full).foldl
      (fun outline listed => outline.addParameter listed.1 listed.2) start).annotations =
        NameMap.ofList (typed (given.filterMap full)) := by
    rw [FunctionOutline.foldl_addParameter, noTypes]
    rfl
  have parameters : ((given.filterMap full).foldl
      (fun outline listed => outline.addParameter listed.1 listed.2) start).parameters =
        (given.filterMap full).map Prod.fst := by
    rw [FunctionOutline.foldl_addParameter, noParameters]
    rfl
  refine ⟨?_, ?_, ?_, ?_⟩
  · rw [parameters, List.map_filterMap]
  · intro name member
    rw [types, NameMap.mem_names_ofList] at member
    rw [parameters]
    exact (typed_sublist _).subset member
  · intro name text found
    rw [types] at found
    obtain ⟨member, nonempty⟩ := mem_typed_iff.mp (NameMap.mem_of_find?_ofList found)
    obtain ⟨parameter, _, same⟩ := List.mem_filterMap.mp member
    exact ⟨nonempty, tidy parameter name text same⟩
  · intro nodup parameter member name isName text
    obtain ⟨⟨_, type⟩, same, rfl⟩ := Option.map_eq_some_iff.mp isName
    rw [parameters] at nodup
    rw [types, NameMap.find?_ofList_eq_some_iff (nodup.sublist (typed_sublist _)), mem_typed_iff,
      carries parameter _ type same]
    refine and_congr_left fun _ => ⟨fun inside => ?_, fun is => ?_⟩
    · -- The entry occurs only once among the listed ones.
      have here : (_, type) ∈ given.filterMap full := List.mem_filterMap.mpr ⟨parameter, member, same⟩
      exact congrArg Prod.snd (List.inj_on_of_nodup_map nodup here inside rfl)
    · exact List.mem_filterMap.mpr ⟨parameter, member, is ▸ same⟩

/-- A function of outlines one after the other belongs to one of them. -/
theorem ModuleOutline.mem_functions_foldr {pieces : List ModuleOutline} {function : FunctionOutline}
    (member : function ∈ (pieces.foldr (· ++ ·) ({} : ModuleOutline)).functions) :
    ∃ piece ∈ pieces, function ∈ piece.functions := by
  induction pieces with
  | nil => cases member
  | cons piece rest ih =>
    rcases List.mem_append.mp member with here | later
    · exact ⟨piece, List.mem_cons_self, here⟩
    · obtain ⟨other, inside, found⟩ := ih later
      exact ⟨other, List.mem_cons_of_mem piece inside, found⟩

/-- A class of outlines one after the other belongs to one of them. -/
theorem ModuleOutline.mem_classes_foldr {pieces : List ModuleOutline} {owner : ClassOutline}
    (member : owner ∈ (pieces.foldr (· ++ ·) ({} : ModuleOutline)).classes) :
    ∃ piece ∈ pieces, owner ∈ piece.classes := by
  induction pieces with
  | nil => cases member
  | cons piece rest ih =>
    rcases List.mem_append.mp member with here | later
    · exact ⟨piece, List.mem_cons_self, here⟩
    · obtain ⟨other, inside, found⟩ := ih later
      exact ⟨other, List.mem_cons_of_mem piece inside, found⟩

/-- A function or a method of an outline. -/
def ModuleOutline.Lists (outline : ModuleOutline) (function : FunctionOutline) : Prop :=
  function ∈ outline.functions ∨ ∃ owner ∈ outline.classes, function ∈ owner.methods

/-- An outline without functions and classes lists nothing. -/
theorem ModuleOutline.not_lists {outline : ModuleOutline} {function : FunctionOutline}
    (noFunctions : outline.functions = []) (noClasses : outline.classes = []) : ¬outline.Lists function := by
  rintro (member | ⟨owner, member, _⟩)
  · rw [noFunctions] at member
    cases member
  · rw [noClasses] at member
    cases member

/-- What outlines list one after the other, one of them lists. -/
theorem ModuleOutline.Lists.of_foldr {pieces : List ModuleOutline} {function : FunctionOutline}
    (lists : (pieces.foldr (· ++ ·) ({} : ModuleOutline)).Lists function) :
    ∃ piece ∈ pieces, piece.Lists function := by
  rcases lists with member | ⟨owner, member, method⟩
  · obtain ⟨piece, inside, found⟩ := mem_functions_foldr member
    exact ⟨piece, inside, .inl found⟩
  · obtain ⟨piece, inside, found⟩ := mem_classes_foldr member
    exact ⟨piece, inside, .inr ⟨owner, found, method⟩⟩

namespace Python

/-- The parameters that are listed end here: at a star, or at a star with a type. -/
def Node.endsListed (parameter : Node) : Bool :=
  match parameter.kind with
  | .listSplat | .dictionarySplat | .keywordSeparator => true
  | .typedParameter => parameter.namedChildren.head?.any fun target => target.kind != .identifier
  | _ => false

/-- The part of a parameter that names it, if it is listed. -/
def Node.target? (parameter : Node) : Option Node :=
  match parameter.kind with
  | .identifier => some parameter
  | .typedParameter => parameter.namedChildren.head?
  | .defaultParameter | .typedDefaultParameter => parameter.child? .name
  | _ => none

/-- The part of a parameter that tells its type. -/
def Node.annotation? (parameter : Node) : Option Node :=
  -- A parameter that is nothing but a name has no type.
  if parameter.kind = .identifier then none else parameter.child? .type

/-- The positional parameters of a definition. -/
def Node.positional (definition : Node) : List Node :=
  (((definition.child? .parameters).map Node.namedChildren).getD []).takeWhile fun parameter =>
    !parameter.endsListed

/-- The entry of a parameter. -/
def Node.entry (source : List Char) (parameter : Node) : Option String :=
  parameter.target?.map fun target => String.ofList (target.text source)

/-- A parameter carries a type that is written as a text, on one line. -/
def Node.Carries (source : List Char) (parameter : Node) (text : String) : Prop :=
  ∃ type, parameter.annotation? = some type ∧ type.collapsed source = text

/-- The listed parameters are those before the end that have a name, each with its type. -/
theorem listedParameters_eq (source : List Char) (parameters : List Node) :
    listedParameters source parameters =
      (parameters.takeWhile fun parameter => !parameter.endsListed).filterMap fun parameter =>
        parameter.target?.map fun target =>
          (String.ofList (target.text source), parameter.annotation?.map (Node.collapsed source)) := by
  induction parameters with
  | nil => rfl
  | cons parameter rest ih =>
    rw [listedParameters]
    -- The kind decides what is listed and whether the list goes on.
    split
    case h_1 kind => simp [Node.endsListed, Node.target?, Node.annotation?, kind, ih]
    case h_2 kind =>
      split
      · rename_i none
        simp [Node.endsListed, Node.target?, kind, none, ih]
      · rename_i target others some
        split
        · rename_i named
          simp_all [Node.endsListed, Node.target?, Node.annotation?, parameterType]
        · rename_i unnamed
          simp_all [Node.endsListed]
    case h_3 kind =>
      split
      · rename_i name found
        simp [Node.endsListed, Node.target?, Node.annotation?, parameterType, kind, found, ih]
      · rename_i none
        simp [Node.endsListed, Node.target?, kind, none, ih]
    case h_4 kind =>
      split
      · rename_i name found
        simp [Node.endsListed, Node.target?, Node.annotation?, parameterType, kind, found, ih]
      · rename_i none
        simp [Node.endsListed, Node.target?, kind, none, ih]
    case h_5 kind => simp [Node.endsListed, kind]
    case h_6 kind => simp [Node.endsListed, kind]
    case h_7 kind => simp [Node.endsListed, kind]
    case h_8 =>
      have endsNot : parameter.endsListed = false := by
        unfold Node.endsListed
        split <;> simp_all
      have listedNot : parameter.target? = none := by
        unfold Node.target?
        split <;> simp_all
      simp [endsNot, listedNot, ih]

/-- The types noted for a function are those of its positional parameters. -/
theorem functionOutline_annotatesFrom {source : List Char} {definition span : Node}
    {function : FunctionOutline} (outlined : functionOutline source definition span = some function) :
    AnnotatesFrom function definition.positional (Node.entry source) (Node.Carries source) := by
  obtain ⟨name, -, rfl⟩ := Option.map_eq_some_iff.mp outlined
  simp only [listedParameters_eq]
  have entries : Node.entry source = fun parameter =>
      (parameter.target?.map fun target => (String.ofList (target.text source),
        parameter.annotation?.map (Node.collapsed source))).map Prod.fst := by
    funext parameter
    rw [Option.map_map]
    rfl
  rw [entries]
  refine annotatesFrom_foldl rfl rfl ?_ ?_
  · intro parameter name text found
    obtain ⟨target, -, same⟩ := Option.map_eq_some_iff.mp found
    obtain ⟨type, -, rfl⟩ := Option.map_eq_some_iff.mp (congrArg Prod.snd same)
    rw [Node.collapsed, String.toList_ofList]
    exact isTidy_collapse _
  · intro parameter name type found text
    obtain ⟨target, -, same⟩ := Option.map_eq_some_iff.mp found
    obtain ⟨-, rfl⟩ := Prod.mk.inj same
    exact Option.map_eq_some_iff.symm

/-- A node is a part of another one, or a part of a part, and so on. -/
def Within (tree node : Node) : Prop :=
  Relation.ReflTransGen (fun parent child : Node => child ∈ parent.children) tree node

/-- A child in a role is a part. -/
theorem Within.child {tree node child : Node} (within : Within tree node) {role : Role}
    (found : node.child? role = some child) : Within tree child :=
  within.tail (List.mem_of_find?_eq_some found)

/-- A named child is a part. -/
theorem Within.named {tree node child : Node} (within : Within tree node)
    (member : child ∈ node.namedChildren) : Within tree child :=
  within.tail (List.mem_of_mem_filter member)

/-- A function of a tree is the outline of a definition in it. -/
def Defines (source : List Char) (tree : Node) (function : FunctionOutline) : Prop :=
  ∃ definition span, Within tree definition ∧ definition.kind = .functionDefinition ∧
    functionOutline source definition span = some function ∧
    AnnotatesFrom function definition.positional (Node.entry source) (Node.Carries source)

variable {source : List Char} {tree : Node} {function : FunctionOutline}

theorem definitionOf_within {statement definition : Node} (within : Within tree statement)
    (found : definitionOf statement = some definition) : Within tree definition := by
  unfold definitionOf at found
  split at found
  · cases found
    exact within
  · cases found
    exact within
  · exact within.child found
  · cases found

/-- A method is the outline of a definition in its class. -/
theorem defines_of_method {definition span : Node} {owner : ClassOutline} {notes : List Omission}
    (within : Within tree definition) (outlined : classOutline source definition span = some (owner, notes))
    (member : function ∈ owner.methods) : Defines source tree function := by
  obtain ⟨name, -, same⟩ := Option.map_eq_some_iff.mp outlined
  obtain ⟨rfl, -⟩ := Prod.mk.inj same
  obtain ⟨pair, inside, listed⟩ := List.mem_flatMap.mp member
  obtain ⟨statement, isMember, rfl⟩ := List.mem_map.mp inside
  obtain ⟨body, found, part⟩ : ∃ body, definition.child? .body = some body ∧
      statement ∈ body.namedChildren := by
    cases found : definition.child? .body with
    | none => simp [found] at isMember
    | some body => exact ⟨body, rfl, by simpa [found] using isMember⟩
  unfold methodOutline at listed
  split at listed
  · rename_i method isDefinition
    split at listed
    · rename_i kind
      split at listed
      · rename_i outline isOutline
        obtain rfl := List.mem_singleton.mp listed
        exact ⟨method, statement, definitionOf_within ((within.child found).named part) isDefinition,
          by simpa using kind, isOutline, functionOutline_annotatesFrom isOutline⟩
      · cases listed
    · cases listed
  · cases listed

/-- What the outline of a definition lists is defined there. -/
theorem defines_of_definition {definition span : Node} (within : Within tree definition)
    (lists : (definitionOutline source definition span).Lists function) :
    Defines source tree function := by
  unfold definitionOutline at lists
  split at lists
  · rename_i kind
    split at lists
    · rename_i outline isOutline
      rcases lists with member | ⟨_, member, _⟩
      · obtain rfl := List.mem_singleton.mp member
        exact ⟨definition, span, within, kind, isOutline, functionOutline_annotatesFrom isOutline⟩
      · cases member
    · exact absurd lists (ModuleOutline.not_lists rfl rfl)
  · split at lists
    · rename_i owner notes isOutline
      rcases lists with member | ⟨_, member, method⟩
      · cases member
      · obtain rfl := List.mem_singleton.mp member
        exact defines_of_method within isOutline method
    · exact absurd lists (ModuleOutline.not_lists rfl rfl)
  · exact absurd lists (ModuleOutline.not_lists rfl rfl)

/-- What the outline of a tree lists is defined in it. -/
theorem defines_of_lists (lists : (treeOutline source tree).Lists function) :
    Defines source tree function := by
  obtain ⟨piece, member, inner⟩ := lists.of_foldr
  obtain ⟨statement, part, rfl⟩ := List.mem_map.mp member
  have top : Within tree tree := .refl
  have within := top.named part
  unfold statementOutline at inner
  split at inner
  · exact defines_of_definition within inner
  · exact defines_of_definition within inner
  · split at inner
    · rename_i definition found
      exact defines_of_definition (within.child found) inner
    · exact absurd inner (ModuleOutline.not_lists rfl rfl)
  · exact absurd inner (ModuleOutline.not_lists rfl rfl)
  · exact absurd inner (ModuleOutline.not_lists rfl rfl)

end Python

namespace Script

/-- A parameter carries a type that is written as a text, its own or that of the parameter inside. -/
inductive Source.Carries (source : Source) : Pattern → String → Prop where
  /-- A name carries the type behind it. -/
  | identifier {id : Identifier} {note : TypeNote} {text : String} (noted : id.type = some note)
    (written : source.typeText note = some text) : Carries source (.identifier id) text
  /-- A default value changes nothing. -/
  | withDefault {left : Pattern} {right : Node} {text : String} (inner : Carries source left text) :
    Carries source (.withDefault left right) text
  /-- The type of all remaining values is told behind them. -/
  | rest {argument : Pattern} {type : Option TypeNote} {note : TypeNote} {text : String}
    (noted : type = some note) (written : source.typeText note = some text) :
    Carries source (.rest argument type) text
  /-- Without such a type that of the argument counts. -/
  | argument {argument : Pattern} {type : Option TypeNote} {text : String}
    (silent : ∀ note ∈ type, source.typeText note = none) (inner : Carries source argument text) :
    Carries source (.rest argument type) text
  /-- A parameter that is a property too carries the type of the parameter. -/
  | property {parameter : Pattern} {text : String} (inner : Carries source parameter text) :
    Carries source (.property parameter) text

/-- The entry of a parameter. -/
def Source.entry (source : Source) (parameter : Pattern) : Option String :=
  (source.parameter parameter).map Prod.fst

/-- The type of a listed parameter is what it carries. -/
theorem Source.carries_iff (source : Source) {parameter : Pattern} {name : String}
    {type : Option String} (listed : source.parameter parameter = some (name, type)) (text : String) :
    source.Carries parameter text ↔ type = some text := by
  induction parameter generalizing name type with
  | identifier id =>
    cases listed
    constructor
    · rintro ⟨noted, written⟩
      rw [noted, Option.bind_some, written]
    · intro written
      obtain ⟨note, noted, same⟩ := Option.bind_eq_some_iff.mp written
      exact .identifier noted same
  | withDefault left right ih =>
    obtain ⟨inner, found, same⟩ := Option.map_eq_some_iff.mp listed
    cases same
    refine Iff.trans ⟨?_, .withDefault⟩ (ih found)
    rintro ⟨held⟩
    assumption
  | rest argument note ih =>
    obtain ⟨inner, found, same⟩ := Option.map_eq_some_iff.mp listed
    cases same
    cases own : note.bind source.typeText with
    | some written =>
      obtain ⟨told, noted, same⟩ := Option.bind_eq_some_iff.mp own
      constructor
      · intro held
        cases held with
        | rest other spelled =>
          cases noted.symm.trans other
          rw [← spelled, same]
          rfl
        | argument silent _ => exact absurd same (by simp [silent told noted])
      · rintro ⟨⟩
        exact .rest noted same
    | none =>
      have silent : ∀ told ∈ note, source.typeText told = none := Option.bind_eq_none_iff.mp own
      refine Iff.trans ⟨fun held => ?_, .argument silent⟩ (ih found)
      cases held with
      | rest noted spelled => exact absurd spelled (by simp [silent _ noted])
      | argument _ inside => exact inside
  | property inner ih =>
    refine Iff.trans ⟨?_, .property⟩ (ih listed)
    rintro ⟨held⟩
    assumption
  | other => cases listed

/-- The type of a listed parameter is tidy. -/
theorem Source.isTidy_of_carries {source : Source} {parameter : Pattern} {text : String}
    (carries : source.Carries parameter text) : IsTidy text.toList := by
  have tidy : ∀ note text, source.typeText note = some text → IsTidy text.toList := by
    intro note text written
    simp only [Source.typeText, Option.bind_eq_bind, Option.bind_eq_some_iff] at written
    obtain ⟨span, -, spelled, -, written⟩ := written
    split at written
    · cases written
    · cases written
      rw [String.toList_ofList]
      exact isTidy_collapse _
  induction carries with
  | identifier _ written => exact tidy _ _ written
  | rest _ written => exact tidy _ _ written
  | withDefault _ ih => exact ih
  | argument _ _ ih => exact ih
  | property _ ih => exact ih

/-- The function that a member of a class is, if it is a method. -/
def Member.definition? : Member → Option Function
  | .methodValue _ value returns _ => some { value with returns := value.returns <|> returns }
  | .method _ parameters isAsync returns span => some ⟨none, parameters, isAsync, returns, span⟩
  | _ => none

/-- A class has a member that is the function. -/
def Class.Holds (owner : Class) (definition : Function) : Prop :=
  ∃ node ∈ owner.members, ∃ part, Member.decode node = .ok part ∧ part.definition? = some definition

/-- A function is defined by a statement: by itself, by a variable or a member, or inside an export. -/
inductive Statement.Holds : Statement → Function → Prop where
  /-- A function defines itself. -/
  | function (definition : Function) : Holds (.function definition) definition
  /-- A variable is bound to it. -/
  | variable_ {declaration : VariableDeclaration} {bound : Declarator} {definition : Function}
    (member : bound ∈ declaration.declarators) (value : bound.function = some definition) :
    Holds (.variables declaration) definition
  /-- A class has it as a method. -/
  | method {owner : Class} {definition : Function} (held : owner.Holds definition) :
    Holds (.classDef owner) definition
  /-- It stands inside an export. -/
  | exported {inner : Statement} {names : List (Option Node)} {span : Span} {definition : Function}
    (held : Holds inner definition) : Holds (.exportNamed (some inner) names span) definition
  /-- It is the default export. -/
  | default (definition : Function) (span : Span) : Holds (.exportDefault (.function definition) span) definition
  /-- It is the default export and an arrow function. -/
  | arrow (definition : Function) (span : Span) : Holds (.exportDefault (.arrow definition) span) definition
  /-- The default export is a class that has it as a method. -/
  | defaultMethod {owner : Class} {definition : Function} (span : Span) (held : owner.Holds definition) :
    Holds (.exportDefault (.classDef owner) span) definition

/-- A function is the outline of a definition. -/
def Source.Outlines (source : Source) (definition : Function) (function : FunctionOutline) : Prop :=
  ∃ name isExpression span isExported,
    function = { source.function name definition isExpression span with isExported := isExported }

/-- The types noted for a function are those of its parameters. -/
theorem Source.annotatesFrom_of_outlines {source : Source} {definition : Function}
    {function : FunctionOutline} (outlines : source.Outlines definition function) :
    AnnotatesFrom function definition.parameters source.entry source.Carries := by
  obtain ⟨name, isExpression, span, isExported, rfl⟩ := outlines
  have base : AnnotatesFrom (source.function name definition isExpression span) definition.parameters
      source.entry source.Carries :=
    annotatesFrom_foldl rfl rfl
      (fun _ _ _ listed => Source.isTidy_of_carries ((source.carries_iff listed _).mpr rfl))
      fun _ _ _ listed => source.carries_iff listed
  exact ⟨base.listed, base.named, base.tidy, base.exact⟩

/-- A function of a tree is the outline of a definition in it. -/
def Defines (source : Source) (tree : SyntaxTree) (function : FunctionOutline) : Prop :=
  ∃ node ∈ tree.body, ∃ statement definition, Statement.decode .outer node = .ok statement ∧
    statement.Holds definition ∧ source.Outlines definition function ∧
    AnnotatesFrom function definition.parameters source.entry source.Carries

variable {source : Source} {function : FunctionOutline}

/-- What decodes was one of the nodes. -/
theorem exists_of_mem_decodeEach {α : Type} {label : String} {decode : Json → Except DecodeError α}
    {nodes : List Json} {found : α} (member : found ∈ (decodeEach label decode nodes).1) :
    ∃ node ∈ nodes, decode node = .ok found := by
  induction nodes with
  | nil => cases member
  | cons node rest ih =>
    rw [decodeEach] at member
    have later : ∀ inside : found ∈ (decodeEach label decode rest).1,
        ∃ other ∈ node :: rest, decode other = .ok found := fun inside =>
      (ih inside).imp fun other same => ⟨List.mem_cons_of_mem node same.1, same.2⟩
    split at member
    · rename_i reads
      rcases List.mem_cons.mp member with rfl | inside
      · exact ⟨node, List.mem_cons_self, reads⟩
      · exact later inside
    · exact later member

/-- A method is the outline of a member of its class. -/
theorem Source.exists_of_method {owner : Class} (span : Span)
    (member : function ∈ (source.classDef owner span).1.methods) :
    ∃ definition, owner.Holds definition ∧ source.Outlines definition function := by
  simp only [Source.classDef, List.mem_filterMap] at member
  obtain ⟨_, ⟨part, decoded, added⟩, same⟩ := member
  obtain ⟨node, inside, reads⟩ := exists_of_mem_decodeEach decoded
  cases part with
  | methodValue key value returns span =>
    cases added
    cases same
    exact ⟨_, ⟨node, inside, _, reads, rfl⟩, _, _, _, _, rfl⟩
  | method key parameters isAsync returns span =>
    cases added
    cases same
    exact ⟨_, ⟨node, inside, _, reads, rfl⟩, _, _, _, _, rfl⟩
  | property key =>
    obtain ⟨name, -, rfl⟩ := Option.map_eq_some_iff.mp added
    cases same
  | other => cases added

/-- What the outline of a default export lists is defined by it. -/
theorem Source.exists_of_default {declaration : DefaultExport} {span : Span}
    (lists : (source.defaultStatement declaration span).Lists function) :
    ∃ definition, (Statement.exportDefault declaration span).Holds definition ∧
      source.Outlines definition function := by
  rcases lists with member | ⟨owner, member, method⟩
  · cases declaration with
    | function definition =>
      obtain rfl := List.mem_singleton.mp member
      exact ⟨definition, .default definition span, _, _, _, _, rfl⟩
    | arrow definition =>
      obtain rfl := List.mem_singleton.mp member
      exact ⟨definition, .arrow definition span, _, _, _, _, rfl⟩
    | _ => cases member
  · cases declaration with
    | classDef definition =>
      obtain rfl := List.mem_singleton.mp member
      obtain ⟨inner, held, outlines⟩ := Source.exists_of_method span method
      exact ⟨inner, .defaultMethod span held, outlines⟩
    | _ => cases member

/-- What the outline of a statement lists is defined by it. -/
theorem Source.exists_of_lists {exported : Option Span} {statement : Statement}
    (lists : (source.statement exported statement).Lists function) :
    ∃ definition, statement.Holds definition ∧ source.Outlines definition function := by
  rcases statement with definition | declaration | definition | _ | ⟨_ | inner, names, span⟩ |
    ⟨declaration, span⟩ | _
  · rcases lists with member | ⟨_, member, _⟩
    · obtain rfl := List.mem_singleton.mp member
      exact ⟨definition, .function definition, _, _, _, _, rfl⟩
    · cases member
  · obtain ⟨piece, member, inner⟩ := lists.of_foldr
    obtain ⟨bound, inside, rfl⟩ := List.mem_map.mp member
    unfold Source.declarator at inner
    split at inner
    · rcases inner with listed | ⟨_, listed, _⟩
      · obtain ⟨definition, value, rfl⟩ := Option.map_eq_some_iff.mp (Option.mem_toList.mp listed)
        exact ⟨definition, .variable_ inside value, _, _, _, _, rfl⟩
      · cases listed
    · exact absurd inner (ModuleOutline.not_lists rfl rfl)
  · rcases lists with member | ⟨_, member, method⟩
    · cases member
    · obtain rfl := List.mem_singleton.mp member
      obtain ⟨inner, held, outlines⟩ := Source.exists_of_method (exported.getD definition.span) method
      exact ⟨inner, .method held, outlines⟩
  · exact absurd lists (ModuleOutline.not_lists rfl rfl)
  · exact absurd lists (ModuleOutline.not_lists rfl rfl)
  · -- Besides the declaration an export adds names only.
    have inside : (source.statement (some span) inner).Lists function := by
      simpa [Source.statement, ModuleOutline.Lists] using lists
    obtain ⟨definition, held, outlines⟩ := Source.exists_of_lists inside
    exact ⟨definition, .exported held, outlines⟩
  · exact Source.exists_of_default lists
  · exact absurd lists (ModuleOutline.not_lists rfl rfl)

/-- What the outline of a program lists is defined in it. -/
theorem defines_of_lists {text : List Char} {docWindow : Nat} {tree : SyntaxTree}
    (lists : (outline text docWindow tree).Lists function) :
    Defines ⟨sourceLines text, docWindow⟩ tree function := by
  obtain ⟨piece, member, inner⟩ := lists.of_foldr
  obtain ⟨node, inside, rfl⟩ := List.mem_map.mp member
  unfold Source.node at inner
  split at inner
  · rename_i statement reads
    obtain ⟨definition, held, outlines⟩ := Source.exists_of_lists inner
    exact ⟨node, inside, statement, definition, reads, held, outlines,
      Source.annotatesFrom_of_outlines outlines⟩
  · exact absurd inner (ModuleOutline.not_lists rfl rfl)

end Script

/-- Every function and every method that is listed notes exactly the types that the parameters of its
definition carry, in both languages. -/
theorem annotations_agree :
    (∀ (source : List Char) (listed : ModuleOutline), Python.outline source = .ok listed →
      ∃ tree, Python.parse source = some tree ∧
        ∀ function, listed.Lists function → Python.Defines source tree function) ∧
    ∀ (text : List Char) (docWindow : Nat) (tree : Script.SyntaxTree) (function : FunctionOutline),
      (Script.outline text docWindow tree).Lists function →
        Script.Defines ⟨Script.sourceLines text, docWindow⟩ tree function := by
  refine ⟨fun source listed outlined => ?_, fun text docWindow tree function => Script.defines_of_lists⟩
  unfold Python.outline at outlined
  split at outlined
  · cases outlined
  · rename_i tree parsed
    refine ⟨tree, parsed, fun function lists => ?_⟩
    cases checked : Python.checkStructure source tree with
    | error failure => simp [checked, bind, Except.bind] at outlined
    | ok _ =>
      rw [checked] at outlined
      cases outlined
      exact Python.defines_of_lists lists

/-- The type of a lone parameter is noted. -/
theorem annotations_agree_typed :
    ∃ (tree : Script.SyntaxTree) (function : FunctionOutline),
      (Script.outline "f(a: Int)".toList 3 tree).Lists function ∧
        Script.Defines ⟨Script.sourceLines "f(a: Int)".toList, 3⟩ tree function ∧
        function.annotations.find? "a" = some "Int" := by
  let place (start stop : Int) : Json := .object
    [("start", .object [("line", .int 1), ("column", .int start)]),
      ("end", .object [("line", .int 1), ("column", .int stop)])]
  let parameter : Json := .object [("type", .string "Identifier"), ("name", .string "a"),
    ("typeAnnotation", .object [("loc", place 3 8)])]
  let node : Json := .object
    [("type", .string "FunctionDeclaration"), ("params", .array [parameter]), ("loc", place 0 9)]
  let pattern : Script.Pattern := .identifier ⟨"a", some ⟨some ⟨⟨1, 3⟩, ⟨1, 8⟩⟩, none⟩⟩
  let definition : Script.Function := ⟨none, [pattern], false, none, ⟨⟨1, 0⟩, ⟨1, 9⟩⟩⟩
  let source : Script.Source := ⟨Script.sourceLines "f(a: Int)".toList, 3⟩
  have bound : Script.Pattern.decode parameter = .ok pattern := by
    rw [Script.Pattern.decode]
    rfl
  have decoded : Script.Statement.decode .outer node = .ok (.function definition) := by
    rw [Script.Statement.decode]
    refine bind_eq_ok.mpr ⟨⟨some "FunctionDeclaration", _, Nat.le_refl _⟩, rfl, ?_⟩
    refine bind_eq_ok.mpr ⟨definition, Shape.decode_object_eq_ok.mpr ?_, rfl⟩
    refine Shape.ofFields_seq_eq_ok.mpr ⟨_, _, Shape.ofFields_seq_eq_ok.mpr ⟨_, _,
      Shape.ofFields_seq_eq_ok.mpr ⟨_, _, Shape.ofFields_seq_eq_ok.mpr ⟨_, [pattern], rfl, ?_, rfl⟩,
        rfl, rfl⟩, rfl, rfl⟩, rfl, rfl⟩
    simp [Shape.defaulted, Shape.field, Shape.lookup, Decoder.list, Decoder.eachOf,
      Script.Pattern.part, bound, node, bind, Except.bind, Except.mapError, pure, Except.pure]
  have whole : Script.outline "f(a: Int)".toList 3 ⟨[node]⟩ =
      source.statement none (.function definition) := by
    simp only [Script.outline, List.map_cons, List.map_nil, List.foldr_cons, List.foldr_nil,
      ModuleOutline.append_empty, Script.Source.node, decoded, source]
  have lists : (Script.outline "f(a: Int)".toList 3 ⟨[node]⟩).Lists
      { source.function definition.name definition false definition.span with isExported := false } := by
    rw [whole]
    exact .inl List.mem_cons_self
  exact ⟨⟨[node]⟩, _, lists, annotations_agree.2 _ _ _ _ lists, by decide⟩

end SourceOutline
