import SourceOutline.Proofs.Outline.Parameters
import SourceOutline.Proofs.Script.Isolation

/-! Exporting a declaration changes nothing but its export status. -/

namespace SourceOutline

/-- The outline with every record at the top exported, under further names. -/
def ModuleOutline.exportedAs (outline : ModuleOutline) (names : List String) : ModuleOutline :=
  -- Methods are no records at the top.
  { outline with
    functions := outline.functions.map fun function => { function with isExported := true }
    classes := outline.classes.map fun owner => { owner with isExported := true }
    exports := outline.exports ++ names }

/-- No record of the outline is exported. -/
def ModuleOutline.IsPrivate (outline : ModuleOutline) : Prop :=
  (∀ function ∈ outline.functions, function.isExported = false) ∧
    ∀ owner ∈ outline.classes, owner.isExported = false

/-- A record of a name has that name among the exported ones, or none of its own and is the default. -/
def ModuleOutline.Exports (outline : ModuleOutline) (name : String) : Prop :=
  name ∈ outline.exports ∨ name = Script.anonymous ∧ Script.defaultName ∈ outline.exports

/-- The records that claim to be exported are, and methods never claim it. -/
structure ModuleOutline.IsConsistent (outline : ModuleOutline) : Prop where
  /-- Exported functions are named by the exports. -/
  functions : ∀ function ∈ outline.functions, function.isExported = true → outline.Exports function.name
  /-- Exported classes are named by the exports. -/
  classes : ∀ owner ∈ outline.classes, owner.isExported = true → outline.Exports owner.name
  /-- Methods are never exported. -/
  methods : ∀ owner ∈ outline.classes, ∀ method ∈ owner.methods, method.isExported = false

namespace Script

/-- The stretch of source of a declaration of functions, variables or a class. -/
def Statement.span? : Statement → Option Span
  | .function definition => some definition.span
  | .variables declaration => some declaration.span
  | .classDef definition => some definition.span
  | _ => none

/-- The name that a variable is bound to; patterns that take values apart bind none. -/
def Declarator.name (variable_ : Declarator) : Option String :=
  match variable_.target with
  | .identifier id => some id.name
  | _ => none

/-- The names that a declaration gives to what it declares. -/
def Statement.declaredNames : Statement → List String
  | .function definition => [definition.name.getD anonymous]
  | .variables declaration => declaration.declarators.filterMap Declarator.name
  | .classDef definition => [definition.name.getD anonymous]
  | _ => []

/-- The name that a declaration is exported under by default. -/
def Statement.defaultName? : Statement → Option String
  | .function definition => some (definition.name.getD defaultName)
  | .classDef definition => some (definition.name.getD defaultName)
  | _ => none

/-- A statement is an export. -/
def Statement.isExport : Statement → Bool
  | .exportNamed .. | .exportDefault .. => true
  | _ => false

/-- The node of an export that holds the node of a declaration. -/
def exportNode (kind : String) (declaration location : Json) : Json :=
  .object [("type", .string kind), ("declaration", declaration), ("loc", location)]

/-- A value tells a stretch of source, wherever it stands. -/
def Locates (location : Json) (span : Span) : Prop :=
  ∀ (whole : Json) (small : sizeOf location < sizeOf whole), Span.decode .inner location small = .ok span

variable {value location : Json} {declared : Statement} {span : Span}

/-- A value is taken apart alike at another place and for other kinds that give its tag no other
meaning. -/
theorem takeApart_of_variantOf {title other : String} {known accepted : List String}
    {tagged : Tagged value} (taken : Tagged.takeApart title known .outer value = .ok tagged)
    (same : ∀ tag, Tagged.variantOf known .outer tag = .ok tagged.variant →
      Tagged.variantOf accepted .inner tag = .ok tagged.variant) :
    Tagged.takeApart other accepted .inner value = .ok tagged := by
  unfold Tagged.takeApart at taken ⊢
  split at taken
  · split at taken
    · cases taken
    · simp only [bind_eq_ok] at taken ⊢
      obtain ⟨variant, meant, rest⟩ := taken
      cases rest
      exact ⟨variant, same _ meant, rfl⟩
  · cases taken
  · simp only [bind_eq_ok] at taken ⊢
    obtain ⟨variant, meant, rest⟩ := taken
    cases rest
    exact ⟨variant, same _ meant, rfl⟩
  · cases taken

/-- On its own, only a text is a tag. -/
theorem variantOf_outer {known : List String} {tag : Json} {variant : Option String}
    (meant : Tagged.variantOf known .outer tag = .ok variant) :
    ∃ name, tag = .string name ∧ variant = if known.contains name then some name else none := by
  unfold Tagged.variantOf at meant
  split at meant
  · cases meant
    exact ⟨_, rfl, rfl⟩
  · cases meant
  · cases meant

/-- What decodes on its own decodes inside an export, too. -/
theorem Statement.decode_inner (decoded : Statement.decode .outer value = .ok declared) :
    Statement.decode .inner value = .ok declared := by
  rw [Statement.decode, bind_eq_ok] at decoded ⊢
  obtain ⟨tagged, taken, rest⟩ := decoded
  refine ⟨tagged, takeApart_of_variantOf taken fun tag meant => ?_, rest⟩
  obtain ⟨name, rfl, same⟩ := variantOf_outer meant
  rw [same]
  rfl

/-- Whatever a shape reads has a property. -/
def Makes {whole : Json} {α : Type} (shape : Shape whole α) (property : α → Prop) : Prop :=
  (∀ fields inFields found, shape.ofFields fields inFields = .ok found → property found) ∧
    ∀ start expected items inItems found,
      shape.ofItems start expected items inItems = .ok found → property found

namespace Makes

variable {whole : Json} {α β : Type} {property : β → Prop}

theorem map (f : α → β) (shape : Shape whole α) : Makes (f <$> shape) fun found => ∃ a, f a = found := by
  constructor
  · intro fields inFields found reads
    obtain ⟨a, -, same⟩ := Shape.ofFields_map_eq_ok.mp reads
    exact ⟨a, same⟩
  · intro start expected items inItems found reads
    obtain ⟨a, -, same⟩ := Shape.ofItems_map_eq_ok.mp reads
    exact ⟨a, same⟩

theorem seq {left : Shape whole (α → β)} {made : (α → β) → Prop} (first : Makes left made)
    (right : Shape whole α) : Makes (left <*> right) fun found => ∃ f a, made f ∧ f a = found := by
  constructor
  · intro fields inFields found reads
    obtain ⟨f, a, before, -, same⟩ := Shape.ofFields_seq_eq_ok.mp reads
    exact ⟨f, a, first.1 _ _ _ before, same⟩
  · intro start expected items inItems found reads
    obtain ⟨f, a, before, -, same⟩ := Shape.ofItems_seq_eq_ok.mp reads
    exact ⟨f, a, first.2 _ _ _ _ _ before, same⟩

theorem decode {shape : Shape whole β} {title : String} {place : Place} {value : Json}
    {fits : sizeOf value ≤ sizeOf whole} {found : β} (makes : Makes shape property)
    (reads : shape.decode title place value fits = .ok found) : property found := by
  cases value with
  | object fields => exact makes.1 _ _ _ (Shape.decode_object_eq_ok.mp reads)
  | array items => exact makes.2 _ _ _ _ _ (Shape.decode_array_eq_ok.mp reads).2
  | _ => exact absurd reads (Shape.not_decode_eq_ok rfl rfl)

end Makes

/-- What a tagged value tells of the function or class that it declares. -/
def Statement.ToldBy (tagged : Tagged value) : Statement → Prop
  | .function definition =>
    tagged.variant = some "FunctionDeclaration" ∧ Tagged.function tagged = .ok definition
  | .classDef definition =>
    tagged.variant = some "ClassDeclaration" ∧ Tagged.class tagged = .ok definition
  | _ => True

/-- A function or a class is declared by a value with the tag of one. -/
theorem Statement.decode_tagged (decoded : Statement.decode .outer value = .ok declared) :
    ∃ tagged, Tagged.takeApart "Statement" Statement.variants .outer value = .ok tagged ∧
      declared.ToldBy tagged := by
  rw [Statement.decode, bind_eq_ok] at decoded
  obtain ⟨tagged, taken, rest⟩ := decoded
  refine ⟨tagged, taken, ?_⟩
  split at rest
  · rename_i kind
    obtain ⟨definition, reads, same⟩ := bind_eq_ok.mp rest
    cases same
    exact ⟨kind, reads⟩
  · obtain ⟨declaration, -, same⟩ := bind_eq_ok.mp rest
    cases same
    trivial
  · rename_i kind
    obtain ⟨definition, reads, same⟩ := bind_eq_ok.mp rest
    cases same
    exact ⟨kind, reads⟩
  · obtain ⟨declaration, -, same⟩ := bind_eq_ok.mp rest
    cases same
    trivial
  · -- Neither kind of export makes a declaration.
    obtain ⟨_, _, ⟨_, _, ⟨_, rfl⟩, rfl⟩, rfl⟩ := (((Makes.map _ _).seq _).seq _).decode rest
    trivial
  · obtain ⟨_, _, ⟨_, rfl⟩, rfl⟩ := ((Makes.map _ _).seq _).decode rest
    trivial
  · unfold Tagged.catchAll at rest
    split at rest <;> cases rest
    trivial

/-- An export by name of a declaration holds what the declaration decodes to. -/
theorem decode_exportNode_named (decoded : Statement.decode .outer value = .ok declared)
    (own : Locates location span) :
    Statement.decode .outer (exportNode "ExportNamedDeclaration" value location) =
      .ok (.exportNamed (some declared) [] span) := by
  unfold exportNode
  rw [Statement.decode, bind_eq_ok]
  refine ⟨⟨some "ExportNamedDeclaration", _, Nat.le_refl _⟩, rfl, ?_⟩
  refine Shape.decode_object_eq_ok.mpr (Shape.ofFields_seq_eq_ok.mpr ⟨_, span,
    Shape.ofFields_seq_eq_ok.mpr ⟨_, [], Shape.ofFields_map_eq_ok.mpr ⟨some declared, ?_, rfl⟩, rfl, rfl⟩,
    ?_, rfl⟩)
  · have inner := Statement.decode_inner decoded
    simp only [Shape.optional, Shape.field, Shape.lookup, Decoder.nullable]
    cases value with
    | null => rw [Statement.decode] at inner; cases inner
    | _ => simp [inner, Except.map, Except.mapError]
  · simp [Shape.required, Shape.field, Shape.lookup, mapError_eq_ok, own _]

/-- A function or class with a name of its own, or none, is what a default export declares. -/
def Statement.asDefault : Statement → Option DefaultExport
  | .function definition => some (.function definition)
  | .classDef definition => some (.classDef definition)
  | _ => none

/-- A default export of a declaration holds what the declaration decodes to. -/
theorem decode_exportNode_default {declaration : DefaultExport}
    (decoded : Statement.decode .outer value = .ok declared)
    (same : declared.asDefault = some declaration) (own : Locates location span) :
    Statement.decode .outer (exportNode "ExportDefaultDeclaration" value location) =
      .ok (.exportDefault declaration span) := by
  unfold exportNode
  rw [Statement.decode, bind_eq_ok]
  refine ⟨⟨some "ExportDefaultDeclaration", _, Nat.le_refl _⟩, rfl, ?_⟩
  refine Shape.decode_object_eq_ok.mpr (Shape.ofFields_seq_eq_ok.mpr ⟨_, span,
    Shape.ofFields_map_eq_ok.mpr ⟨declaration, ?_, rfl⟩, ?_, rfl⟩)
  · have inner : ∀ (whole : Json) (small : sizeOf value < sizeOf whole),
        DefaultExport.decode value small = .ok declaration := by
      intro whole small
      obtain ⟨tagged, taken, told⟩ := Statement.decode_tagged decoded
      have again : ∀ kind, tagged.variant = some kind → kind ∈ DefaultExport.variants →
          Tagged.takeApart "DefaultExport" DefaultExport.variants .inner value = .ok tagged := by
        intro kind isKind known
        refine takeApart_of_variantOf taken fun tag meant => ?_
        obtain ⟨name, rfl, variant⟩ := variantOf_outer meant
        rw [isKind] at variant ⊢
        split at variant
        · cases variant
          simp [Tagged.variantOf, known]
        · cases variant
      cases declared with
      | function definition =>
        cases same
        rw [DefaultExport.decode, bind_eq_ok]
        refine ⟨tagged, again _ told.1 (by decide), ?_⟩
        simp [told.1, told.2]
      | classDef definition =>
        cases same
        rw [DefaultExport.decode, bind_eq_ok]
        refine ⟨tagged, again _ told.1 (by decide), ?_⟩
        simp [told.1, told.2]
      | _ => cases same
    simp [Shape.required, Shape.field, Shape.lookup, mapError_eq_ok, inner]
  · simp [Shape.required, Shape.field, Shape.lookup, mapError_eq_ok, own _]

section Records

variable (source : Source)

/-- A function has the name it is given, and is not exported on its own. -/
theorem Source.function_name (name : Option String) (definition : Function) (isExpression : Bool)
    (span : Span) :
    (source.function name definition isExpression span).name = name.getD anonymous ∧
      (source.function name definition isExpression span).isExported = false := by
  simp only [Source.function, FunctionOutline.foldl_addParameter, and_self]

/-- A method is a function that is not exported. -/
theorem Source.isExported_methods (definition : Class) (span : Span) :
    ∀ method ∈ (source.classDef definition span).1.methods, method.isExported = false := by
  intro method member
  simp only [Source.classDef, List.mem_filterMap] at member
  obtain ⟨_, ⟨part, _, added⟩, same⟩ := member
  cases part with
  | methodValue key value returns span =>
    cases added
    cases same
    exact (source.function_name _ _ _ _).2
  | method key parameters isAsync returns span =>
    cases added
    cases same
    exact (source.function_name _ _ _ _).2
  | property key =>
    obtain ⟨name, -, rfl⟩ := Option.map_eq_some_iff.mp added
    cases same
  | other => cases added

end Records

end Script

namespace ModuleOutline

variable {first second : ModuleOutline}

/-- Outlines are exported one after the other when the second one exports nothing of its own. -/
theorem exportedAs_append (names more : List String) (nothing : second.exports = []) :
    first.exportedAs names ++ second.exportedAs more = (first ++ second).exportedAs (names ++ more) := by
  show append _ _ = exportedAs (append _ _) _
  simp [append, exportedAs, nothing]

theorem IsPrivate.append (left : first.IsPrivate) (right : second.IsPrivate) :
    (first ++ second).IsPrivate := by
  constructor
  · intro function member
    exact (List.mem_append.mp member).elim (left.1 function) (right.1 function)
  · intro owner member
    exact (List.mem_append.mp member).elim (left.2 owner) (right.2 owner)

/-- Names that are exported go on being so when more is appended. -/
theorem Exports.append_left {name : String} (named : first.Exports name) (more : ModuleOutline) :
    (first ++ more).Exports name :=
  named.imp (List.mem_append_left _) fun ⟨same, member⟩ => ⟨same, List.mem_append_left _ member⟩

theorem Exports.append_right {name : String} (named : second.Exports name) (less : ModuleOutline) :
    (less ++ second).Exports name :=
  named.imp (List.mem_append_right _) fun ⟨same, member⟩ => ⟨same, List.mem_append_right _ member⟩

/-- Outlines that are consistent are so one after the other. -/
theorem IsConsistent.append (left : first.IsConsistent) (right : second.IsConsistent) :
    (first ++ second).IsConsistent := by
  refine ⟨?_, ?_, ?_⟩
  · intro function member exported
    rcases List.mem_append.mp member with before | behind
    · exact (left.functions function before exported).append_left second
    · exact (right.functions function behind exported).append_right first
  · intro owner member exported
    rcases List.mem_append.mp member with before | behind
    · exact (left.classes owner before exported).append_left second
    · exact (right.classes owner behind exported).append_right first
  · intro owner member
    exact (List.mem_append.mp member).elim (left.methods owner) (right.methods owner)

theorem IsConsistent.empty : IsConsistent {} :=
  ⟨by simp, by simp, by simp⟩

end ModuleOutline

namespace Script

variable (source : Source)

/-- An exported variable is listed as it is without the export, and its name is exported. -/
theorem Source.declarator_exported (whole : Option Span) (variable_ : Declarator) :
    source.declarator true whole variable_ =
      (source.declarator false whole variable_).exportedAs variable_.name.toList := by
  unfold Source.declarator Declarator.name
  cases variable_.target with
  | identifier id => cases variable_.function <;> rfl
  | _ => rfl

/-- A variable that is not exported leaves neither an exported record nor an exported name. -/
theorem Source.declarator_private (whole : Option Span) (variable_ : Declarator) :
    (source.declarator false whole variable_).exports = [] ∧
      (source.declarator false whole variable_).IsPrivate := by
  unfold Source.declarator
  cases variable_.target with
  | identifier id => cases variable_.function <;> simp [exportsOf, ModuleOutline.IsPrivate]
  | _ => simp [ModuleOutline.IsPrivate]

theorem Source.declarator_consistent (isExported : Bool) (whole : Option Span) (variable_ : Declarator) :
    (source.declarator isExported whole variable_).IsConsistent := by
  unfold Source.declarator
  cases variable_.target with
  | identifier id =>
    refine ⟨?_, by simp, by simp⟩
    cases variable_.function with
    | none => simp
    | some definition =>
      intro function member exported
      obtain rfl := List.mem_singleton.mp member
      cases exported
      exact .inl (by simp [exportsOf, (source.function_name _ _ _ _).1])
  | _ => exact .empty

/-- Variables that are not exported leave neither an exported record nor an exported name. -/
theorem Source.declarators_private (whole : Option Span) (declarators : List Declarator) :
    let joined := (declarators.map (source.declarator false whole)).foldr (· ++ ·) ({} : ModuleOutline)
    joined.exports = [] ∧ joined.IsPrivate := by
  induction declarators with
  | nil => simp [ModuleOutline.IsPrivate]
  | cons variable_ rest ih =>
    obtain ⟨nothing, hidden⟩ := source.declarator_private whole variable_
    refine ⟨?_, hidden.append ih.2⟩
    rw [List.map_cons, List.foldr_cons, ModuleOutline.exports_append, nothing, ih.1]
    rfl

theorem Source.declarators_consistent (isExported : Bool) (whole : Option Span)
    (declarators : List Declarator) :
    ((declarators.map (source.declarator isExported whole)).foldr (· ++ ·)
      ({} : ModuleOutline)).IsConsistent := by
  induction declarators with
  | nil => exact .empty
  | cons variable_ rest ih => exact (source.declarator_consistent isExported whole variable_).append ih

/-- Exported variables are listed as they are without the export, and their names are exported. -/
theorem Source.variables_exported (declaration : VariableDeclaration) :
    source.variablesStatement (some declaration.span) declaration =
      (source.variablesStatement none declaration).exportedAs
        (declaration.declarators.filterMap Declarator.name) := by
  -- A lone variable takes up the same stretch of source either way.
  have each : ∀ (whole : Option Span) (declarators : List Declarator),
      (declarators.map (source.declarator true whole)).foldr (· ++ ·) ({} : ModuleOutline) =
        ((declarators.map (source.declarator false whole)).foldr (· ++ ·) ({} : ModuleOutline)).exportedAs
          (declarators.filterMap Declarator.name) := by
    intro whole declarators
    induction declarators with
    | nil => rfl
    | cons variable_ rest ih =>
      rw [List.map_cons, List.foldr_cons, ih, source.declarator_exported,
        ModuleOutline.exportedAs_append _ _ (source.declarators_private whole rest).1]
      cases named : variable_.name <;> simp [named]
  exact each _ _

/-- An export by name leaves the records of the declaration, exported, and its names. -/
theorem Source.statement_exportNamed (own : declared.span? = some span) :
    source.statement none (.exportNamed (some declared) [] span) =
      (source.statement none declared).exportedAs declared.declaredNames := by
  have inner : source.statement none (.exportNamed (some declared) [] span) =
      source.statement (some span) declared := by
    rw [Source.statement]
    exact ModuleOutline.append_empty _
  rw [inner]
  rcases declared with definition | declaration | definition | _ | _ | _ | _ <;> cases own
  · simp [Source.statement, Source.functionStatement, ModuleOutline.exportedAs, exportsOf,
      Statement.declaredNames, (source.function_name _ _ _ _).1]
  · exact source.variables_exported declaration
  · rfl

/-- A default export leaves the records of the declaration, exported, and one name. -/
theorem Source.statement_exportDefault {declaration : DefaultExport} {name : String}
    (own : declared.span? = some span) (same : declared.asDefault = some declaration)
    (named : declared.defaultName? = some name) :
    source.statement none (.exportDefault declaration span) =
      (source.statement none declared).exportedAs [name] := by
  rcases declared with definition | _ | definition | _ | _ | _ | _ <;> cases same <;> cases own <;>
    cases named <;> rfl

/-- A statement that is no export leaves no exported record. -/
theorem Source.statement_private (plain : declared.isExport = false) :
    (source.statement none declared).IsPrivate := by
  rcases declared with definition | declaration | definition | _ | _ | _ | _
  · simp [Source.statement, Source.functionStatement, ModuleOutline.IsPrivate]
  · exact (source.declarators_private _ _).2
  · simp [Source.statement, Source.classStatement, ModuleOutline.IsPrivate]
  · simp [Source.statement, ModuleOutline.IsPrivate]
  · cases plain
  · cases plain
  · simp [Source.statement, ModuleOutline.IsPrivate]

/-- A single function is consistent when its name is exported with it, or the default name. -/
theorem consistent_of_function {function : FunctionOutline} {exports : List String}
    (named : function.isExported = true →
      function.name ∈ exports ∨ function.name = anonymous ∧ defaultName ∈ exports) :
    ({ functions := [function], exports := exports } : ModuleOutline).IsConsistent := by
  refine ⟨fun other member exported => ?_, by simp, by simp⟩
  obtain rfl := List.mem_singleton.mp member
  exact named exported

/-- A single class is consistent when its name is exported with it, or the default name. -/
theorem consistent_of_class {owner : ClassOutline} {exports : List String} {omissions : List Omission}
    (methods : ∀ method ∈ owner.methods, method.isExported = false)
    (named : owner.isExported = true →
      owner.name ∈ exports ∨ owner.name = anonymous ∧ defaultName ∈ exports) :
    ({ classes := [owner], exports := exports, omissions := omissions } : ModuleOutline).IsConsistent := by
  refine ⟨by simp, fun other member exported => ?_, fun other member => ?_⟩
  · obtain rfl := List.mem_singleton.mp member
    exact named exported
  · obtain rfl := List.mem_singleton.mp member
    exact methods

/-- A name of its own is what is exported by default, and otherwise the default name. -/
theorem mem_default (name : Option String) :
    name.getD anonymous ∈ [name.getD defaultName] ∨
      name.getD anonymous = anonymous ∧ defaultName ∈ [name.getD defaultName] := by
  cases name <;> simp

/-- Every default export leaves consistent records. -/
theorem Source.default_consistent (declaration : DefaultExport) (span : Span) :
    (source.defaultStatement declaration span).IsConsistent := by
  cases declaration with
  | function definition =>
    refine consistent_of_function fun _ => ?_
    simpa only [(source.function_name _ _ _ _).1] using mem_default definition.name
  | arrow definition =>
    refine consistent_of_function fun _ => ?_
    exact .inr ⟨(source.function_name _ _ _ _).1, List.mem_singleton_self _⟩
  | classDef definition =>
    exact consistent_of_class (source.isExported_methods definition span)
      fun _ => mem_default definition.name
  | other => exact ⟨by simp [defaultStatement], by simp [defaultStatement], by simp [defaultStatement]⟩

/-- Every statement leaves consistent records, wherever it stands. -/
theorem Source.statement_consistent (exported : Option Span) (statement : Statement) :
    (source.statement exported statement).IsConsistent := by
  -- Only an export by name holds another statement.
  induction statement using Statement.definedClass.induct generalizing exported with
  | case1 definition =>
    refine consistent_of_class
      (source.isExported_methods definition (exported.getD definition.span)) fun named => ?_
    cases exported with
    | none => cases named
    | some span => exact .inl (by simp [exportsOf])
  | case2 inner names span ih => exact (ih (some span)).append ⟨by simp, by simp, by simp⟩
  | case3 definition span => exact source.default_consistent _ _
  | case4 statement noClass noNamed noDefault =>
    rcases statement with definition | declaration | definition | _ | ⟨_ | inner, names, span⟩ |
      ⟨declaration, span⟩ | _
    · refine consistent_of_function fun named => ?_
      cases exported with
      | none => cases named
      | some span => exact .inl (by simp [exportsOf])
    · exact source.declarators_consistent _ _ _
    · exact absurd rfl (noClass definition)
    · exact ⟨by simp [Source.statement], by simp [Source.statement], by simp [Source.statement]⟩
    · exact ⟨by simp [Source.statement], by simp [Source.statement], by simp [Source.statement]⟩
    · exact absurd rfl (noNamed inner names span)
    · exact source.default_consistent declaration span
    · exact .empty

/-- Every node leaves consistent records. -/
theorem Source.node_consistent (node : Json) : (source.node node).IsConsistent := by
  unfold Source.node
  split
  · exact source.statement_consistent none _
  · exact ⟨by simp, by simp, by simp⟩

/-- Every program has a consistent outline. -/
theorem outline_consistent (text : List Char) (docWindow : Nat) (tree : SyntaxTree) :
    (outline text docWindow tree).IsConsistent := by
  obtain ⟨body⟩ := tree
  induction body with
  | nil => exact .empty
  | cons node rest ih =>
    rw [outline_cons]
    exact (Source.node_consistent _ node).append ih

/-- Exporting a declaration leaves its records as they are, marked as exported, and adds the names that
it declares; statements that export nothing leave no exported record, and the exports of a program
name every exported one. -/
theorem exports_agree (text : List Char) (docWindow : Nat) :
    (∀ (node location : Json) (declared : Statement) (span : Span),
      Statement.decode .outer node = .ok declared → declared.span? = some span →
      Locates location span →
        let source : Source := ⟨sourceLines text, docWindow⟩
        source.node (exportNode "ExportNamedDeclaration" node location) =
          (source.node node).exportedAs declared.declaredNames ∧
        ∀ name, declared.defaultName? = some name →
          source.node (exportNode "ExportDefaultDeclaration" node location) =
            (source.node node).exportedAs [name]) ∧
    (∀ (node : Json) (declared : Statement), Statement.decode .outer node = .ok declared →
      declared.isExport = false → (Source.node ⟨sourceLines text, docWindow⟩ node).IsPrivate) ∧
    ∀ tree : SyntaxTree, (outline text docWindow tree).IsConsistent := by
  refine ⟨fun node location declared span decoded own located => ⟨?_, fun name named => ?_⟩,
    fun node declared decoded plain => ?_, outline_consistent text docWindow⟩
  · rw [Source.node, decode_exportNode_named decoded located, Source.node, decoded]
    exact Source.statement_exportNamed _ own
  · obtain ⟨declaration, same⟩ : ∃ declaration, declared.asDefault = some declaration := by
      cases declared <;> first | exact ⟨_, rfl⟩ | cases named
    rw [Source.node, decode_exportNode_default decoded same located, Source.node, decoded]
    exact Source.statement_exportDefault _ own same named
  · rw [Source.node, decoded]
    exact Source.statement_private _ plain

/-- A function without name is exported by default under the default name. -/
theorem exports_agree_anonymous :
    ∃ (node location : Json) (definition : Function),
      Statement.decode .outer node = .ok (.function definition) ∧
        Locates location definition.span ∧
        (Source.node ⟨sourceLines "f".toList, 3⟩
          (exportNode "ExportDefaultDeclaration" node location)).exports = [defaultName] := by
  let place : Json := .object [("line", .int 1)]
  let location : Json := .object [("start", place), ("end", place)]
  let node : Json := .object [("type", .string "FunctionDeclaration"), ("loc", location)]
  let definition : Function := ⟨none, [], false, none, ⟨⟨1, 0⟩, ⟨1, 0⟩⟩⟩
  have decoded : Statement.decode .outer node = .ok (.function definition) := by
    rw [Statement.decode]
    rfl
  have located : Locates location definition.span := fun _ _ => rfl
  refine ⟨node, location, definition, decoded, located, ?_⟩
  rw [((exports_agree "f".toList 3).1 node location _ _ decoded rfl located).2 _ rfl]
  rw [Source.node, decoded]
  rfl

end Script

end SourceOutline
