import SourceOutline.Proofs.Json.Parts
import SourceOutline.Proofs.Script.Exports

/-! Which of the names that the statements of a program export are listed. -/

namespace SourceOutline.Script

/-- A name that a statement exports. -/
structure ExportedName where
  /-- The name. -/
  name : String
  /-- It is bound inside a pattern that takes a value apart. -/
  isPart : Bool
  deriving DecidableEq

namespace ExportedName

/-- A name that is exported as it stands. -/
def whole (name : String) : ExportedName := ⟨name, false⟩

/-- A name that is bound inside a pattern. -/
def part (name : String) : ExportedName := ⟨name, true⟩

/-- The name, unless it is bound inside a pattern. -/
def listed (exported : ExportedName) : Option String :=
  if exported.isPart then none else some exported.name

/-- Names that are exported as they stand are all listed. -/
theorem filterMap_listed_whole (names : List String) : (names.map whole).filterMap listed = names := by
  rw [List.filterMap_map]
  exact List.filterMap_some

/-- No name is listed that is bound inside a pattern. -/
theorem filterMap_listed_part (names : List String) : (names.map part).filterMap listed = [] := by
  rw [List.filterMap_map, List.filterMap_eq_nil_iff]
  exact fun _ _ => rfl

/-- The names that are listed are all there are exactly when none is bound inside a pattern. -/
theorem filterMap_listed_eq_iff (exported : List ExportedName) :
    exported.filterMap listed = exported.map name ↔ ∀ one ∈ exported, one.isPart = false := by
  constructor
  · intro all
    have enough : (exported.filterMap listed).length = exported.length := by rw [all, List.length_map]
    intro one member
    have some_name : (listed one).isSome = true :=
      List.filterMap_length_eq_length.mp enough one member
    cases isPart : one.isPart with
    | false => rfl
    | true => simp [listed, isPart] at some_name
  · intro plain
    rw [← List.filterMap_eq_map]
    exact List.filterMap_congr fun one member => by simp [listed, plain one member]

end ExportedName

/-- The field in which a pattern, or a property of one, holds what it binds. -/
def bindingField : String → Option String
  | "AssignmentPattern" => some "left"
  | "RestElement" => some "argument"
  | "ArrayPattern" => some "elements"
  | "ObjectPattern" => some "properties"
  | "Property" | "ObjectProperty" => some "value"
  | _ => none

/-- The patterns inside a pattern: the one that a field holds, or the items when it holds several. -/
def innerPatterns (pattern : Json) : List Json :=
  match ((pattern.get? "type").bind Json.text?).bind bindingField with
  | none => []
  | some field =>
    match pattern.get? field with
    | some (.array items) => items
    | some inner => [inner]
    | none => []

/-- A field of a value is smaller than the value. -/
theorem sizeOf_lt_of_get? {value part : Json} {name : String} (told : value.get? name = some part) :
    sizeOf part < sizeOf value := by
  obtain ⟨fields, rfl⟩ := exists_object_of_get? told
  exact @Json.sizeOf_lt_of_part? name 0 _ part told

/-- The patterns inside a pattern are smaller. -/
theorem sizeOf_lt_of_mem_innerPatterns {pattern inner : Json} (member : inner ∈ innerPatterns pattern) :
    sizeOf inner < sizeOf pattern := by
  unfold innerPatterns at member
  split at member
  · cases member
  · rename_i field _
    split at member
    · rename_i items told
      exact Nat.lt_trans (sizeOf_lt_array member) (sizeOf_lt_of_get? told)
    · rename_i other _ told
      rw [List.mem_singleton.mp member]
      exact sizeOf_lt_of_get? told
    · cases member

/-- The names that a pattern binds, in the order of the source. -/
def boundNames (pattern : Json) : List String :=
  if pattern.get? "type" matches some (.string "Identifier") then
    ((pattern.get? "name").bind Json.text?).toList
  else (innerPatterns pattern).attach.flatMap fun inner => boundNames inner.1
termination_by sizeOf pattern
decreasing_by exact sizeOf_lt_of_mem_innerPatterns inner.2

/-- The names that a variable of an exported declaration exports. -/
def targetNames (declarator : Json) : List ExportedName :=
  match declarator.part? "id" 0 with
  | none => []
  | some target =>
    if kindOf "Pattern" Pattern.variants .inner target = some "Identifier" then
      ((target.part? "name" 1).bind Json.text?).toList.map .whole
    else (boundNames target).map .part

/-- The name that a function or class is declared with. -/
def declaredName (declaration : Json) : Option String :=
  ((declaration.part? "id" 1).bind (Json.part? "name" 0)).bind Json.text?

/-- The name that a node stands for: an identifier, a private name or a text. -/
def namedBy (node : Json) : Option String :=
  match (node.part? "type" 0).bind Json.text? with
  | some "Identifier" => (node.part? "name" 1).bind Json.text?
  | some "PrivateIdentifier" => ((node.part? "name" 1).bind Json.text?).map ("#" ++ ·)
  | some "PrivateName" =>
    (((node.part? "id" 2).bind (Json.part? "name" 1)).bind Json.text?).map ("#" ++ ·)
  | some "Literal" | some "StringLiteral" => (node.part? "value" 3).bind Json.text?
  | _ => none

/-- The name that something is exported under by default. -/
def defaultNameOf (declaration : Json) : String :=
  match kindOf "DefaultExport" DefaultExport.variants .inner declaration with
  | some "FunctionDeclaration" | some "FunctionExpression" | some "ClassDeclaration" =>
    (declaredName declaration).getD defaultName
  | _ => defaultName

/-- The names that a statement exports, be it an export or the declaration inside one. -/
def exportedNames (place : Place) (isExported : Bool) (value : Json) : List ExportedName :=
  match kindOf "Statement" Statement.variants place value with
  | some "FunctionDeclaration" | some "ClassDeclaration" =>
    if isExported then [.whole ((declaredName value).getD anonymous)] else []
  | some "VariableDeclaration" =>
    if isExported then (value.partItems "declarations" 1).flatMap targetNames else []
  | some "ExportNamedDeclaration" =>
    -- What is declared stands in front of the list of names.
    let declared :=
      match _told : value.part? "declaration" 1 with
      | some inner => exportedNames .inner true inner
      | none => []
    let names := (value.partItems "specifiers" 2).filterMap fun specifier =>
      (specifier.part? "exported" 0).bind namedBy
    declared ++ names.map .whole
  | some "ExportDefaultDeclaration" =>
    [.whole (((value.part? "declaration" 1).map defaultNameOf).getD defaultName)]
  | _ => []
termination_by sizeOf value
decreasing_by exact Json.sizeOf_lt_of_part? _told

/-! ## What is read of the parts -/

section Parts

variable {whole : Json}

/-- The fields of a name tell it. -/
theorem Identifier.finds_name (place : Place) : (Identifier.shape place : Shape whole Identifier).Finds 0
    fun parts id => (parts "name" 0).bind Json.text? = some id.name := by
  refine (((Shape.Finds.required _ _).map _).seq (.anything _)).mono ?_
  rintro parts id ⟨_, ⟨name, ⟨told, _, there, isText⟩, rfl⟩, _, -, rfl⟩
  exact Option.bind_eq_some_iff.mpr ⟨told, there,
    congrArg Json.text? ((Decoder.reads_string _ _ _).mp isText)⟩

/-- The first part of a declaration tells its name, or that it has none. -/
theorem told_declaredName {parts : Option Json} {id : Option Identifier}
    (told : (∃ value small name, parts = some value ∧
        (Identifier.decode .inner : Decoder whole Identifier) value small = .ok name ∧ id = some name) ∨
      parts.getD .null = .null ∧ id = none) :
    (parts.bind (Json.part? "name" 0)).bind Json.text? = id.map Identifier.name := by
  rcases told with ⟨value, small, name, rfl, reads, rfl⟩ | ⟨missing, rfl⟩
  · exact (Identifier.finds_name .inner).decode reads
  · cases parts with
    | none => rfl
    | some value =>
      obtain rfl : value = .null := missing
      rfl

variable {title : String} {variants : List String} {place : Place} {value : Json} {tagged : Tagged value}

/-- A function has the name that its first part tells. -/
theorem Function.told_name {definition : Function}
    (taken : Tagged.takeApart title variants place value = .ok tagged)
    (reads : Tagged.function tagged = .ok definition) : declaredName value = definition.name := by
  obtain ⟨_, ⟨_, ⟨_, ⟨_, ⟨id, told, rfl⟩, _, -, rfl⟩, _, -, rfl⟩, _, -, rfl⟩, _, -, rfl⟩ :=
    (((((Shape.Finds.optional _ _).map _).seq (.anything _)).seq (.anything _)).seq
      (.anything _)).seq (.anything _) |>.decode reads
  simp only [Tagged.part?_content taken] at told
  exact told_declaredName told

/-- A class has the name that its first part tells. -/
theorem Class.told_name {definition : Class}
    (taken : Tagged.takeApart title variants place value = .ok tagged)
    (reads : Tagged.class tagged = .ok definition) : declaredName value = definition.name := by
  obtain ⟨_, ⟨_, ⟨_, ⟨id, told, rfl⟩, _, -, rfl⟩, _, -, rfl⟩, _, -, rfl⟩ :=
    ((((Shape.Finds.optional _ _).map _).seq (.anything _)).seq (.anything _)).seq
      (.anything _) |>.decode reads
  simp only [Tagged.part?_content taken] at told
  exact told_declaredName told

/-- A part of any kind that may be absent is a text when it is read as one. -/
theorem told_text {part found : Option Json}
    (told : (∃ value small other, part = some value ∧
        (Decoder.any : Decoder whole Json) value small = .ok other ∧ found = some other) ∨
      part.getD .null = .null ∧ found = none) : part.bind Json.text? = found.bind Json.text? := by
  rcases told with ⟨value, small, other, rfl, reads, rfl⟩ | ⟨missing, rfl⟩
  · cases reads
    rfl
  · cases part with
    | none => rfl
    | some value =>
      obtain rfl : value = .null := missing
      rfl

/-- What the parts of a value tell of the node that it is read as. -/
structure Node.IsTold (value : Json) (node : Node) : Prop where
  /-- The kind. -/
  kind : (value.part? "type" 0).bind Json.text? = some node.kind
  /-- The name, when it is a text. -/
  nameText : (value.part? "name" 1).bind Json.text? = node.nameText
  /-- The node that names it, as far as its name is a text. -/
  idText : ((value.part? "id" 2).bind (Json.part? "name" 1)).bind Json.text? = node.id.bind Node.nameText
  /-- The value, when it is a text. -/
  value : (value.part? "value" 3).bind Json.text? = node.value.bind Json.text?

/-- A node is told by the parts of the value that it is read from. -/
theorem Node.isTold {value : Json} {node : Node} (reads : Node.decode .inner value = .ok node) :
    Node.IsTold value node := by
  rw [Node.decode] at reads
  obtain ⟨_, ⟨_, ⟨_, ⟨_, ⟨_, ⟨_, ⟨kind, ⟨toldKind, _, there, isText⟩, rfl⟩, name, toldName, rfl⟩, id,
      toldId, rfl⟩, content, toldContent, rfl⟩, _, -, rfl⟩, _, -, rfl⟩, _, -, rfl⟩ :=
    (((((((Shape.Finds.required _ _).map _).seq (.optional _ _)).seq (.optional _ _)).seq
      (.optional _ _)).seq (.anything _)).seq (.anything _)).seq (.anything _) |>.decode reads
  refine ⟨?_, told_text toldName, ?_, told_text toldContent⟩
  · exact Option.bind_eq_some_iff.mpr ⟨toldKind, there,
      congrArg Json.text? ((Decoder.reads_string _ _ _).mp isText)⟩
  · rcases toldId with ⟨child, small, inner, there, readsInner, rfl⟩ | ⟨missing, rfl⟩
    · -- The node inside is told in the same way.
      show ((value.part? "id" 2).bind (Json.part? "name" 1)).bind Json.text? = inner.nameText
      rw [show value.part? "id" 2 = some child from there, Option.bind_some]
      exact (Node.isTold readsInner).nameText
    · show ((value.part? "id" 2).bind (Json.part? "name" 1)).bind Json.text? = none
      cases part : value.part? "id" 2 with
      | none => rfl
      | some child =>
        have missing : (value.part? "id" 2).getD .null = .null := missing
        rw [part] at missing
        obtain rfl : child = .null := missing
        rfl
termination_by sizeOf value

/-- A node stands for the name that its parts tell. -/
theorem Node.told_name {node : Node} (reads : Node.decode .inner value = .ok node) :
    namedBy value = node.resolvedName := by
  have told := Node.isTold reads
  unfold namedBy Node.resolvedName
  rw [told.kind]
  split <;> simp_all [told.nameText, told.idText, told.value]

/-- A pattern is read as a name exactly when its kind is that of one, which tells the name. -/
theorem Pattern.told_identifier {pattern : Pattern} (reads : Pattern.decode value = .ok pattern) :
    (kindOf "Pattern" Pattern.variants .inner value = some "Identifier" ∧
      ∃ id, pattern = .identifier id ∧ (value.part? "name" 1).bind Json.text? = some id.name) ∨
    (kindOf "Pattern" Pattern.variants .inner value ≠ some "Identifier" ∧
      ∀ id, pattern ≠ .identifier id) := by
  rw [Pattern.decode] at reads
  obtain ⟨tagged, taken, reads⟩ := bind_eq_ok.mp reads
  rw [kindOf, taken]
  split at reads
  · rename_i kind
    obtain ⟨id, readsName, same⟩ := bind_eq_ok.mp reads
    cases same
    refine .inl ⟨kind, id, rfl, ?_⟩
    rw [← Tagged.part?_content taken]
    exact (Identifier.finds_name .inner).decode readsName
  · rename_i kind
    obtain ⟨_, ⟨_, -, rfl⟩, _, -, rfl⟩ :=
      (((Shape.Finds.anything _).map _).seq (.anything _)).decode reads
    exact .inr ⟨by simp [kind], nofun⟩
  · rename_i kind
    obtain ⟨_, ⟨_, -, rfl⟩, _, -, rfl⟩ :=
      (((Shape.Finds.anything _).map _).seq (.anything _)).decode reads
    exact .inr ⟨by simp [kind], nofun⟩
  · rename_i kind
    obtain ⟨_, -, rfl⟩ := ((Shape.Finds.anything _).map _).decode reads
    exact .inr ⟨by simp [kind], nofun⟩
  · rename_i other _ _ _
    unfold Tagged.catchAll at reads
    split at reads <;> cases reads
    exact .inr ⟨other, nofun⟩

/-- A variable is bound to the name that is listed of its target. -/
theorem Declarator.told_target {declarator : Declarator} {small : sizeOf value < sizeOf whole}
    (reads : Declarator.decode value small = .ok declarator) :
    (targetNames value).filterMap ExportedName.listed = declarator.name.toList := by
  obtain ⟨_, ⟨_, ⟨target, ⟨told, _, there, readsTarget⟩, rfl⟩, init, -, rfl⟩, span, -, rfl⟩ :=
    ((((Shape.Finds.required _ _).map _).seq (.anything _)).seq (.anything _)).decode reads
  rw [targetNames, show value.part? "id" 0 = some told from there]
  rcases Pattern.told_identifier readsTarget with ⟨kind, id, rfl, named⟩ | ⟨kind, different⟩
  · simp only [kind, if_true, named, Option.toList_some, Declarator.name]
    exact ExportedName.filterMap_listed_whole _
  · have nameless : Declarator.name ⟨target, init, span⟩ = none := by
      cases target with
      | identifier id => exact absurd rfl (different id)
      | _ => rfl
    simp only [if_neg kind, ExportedName.filterMap_listed_part, nameless]
    rfl

/-- The items of a part with a list are those of the list. -/
theorem told_items {α : Type} {decode : Decoder whole α} {part : Option Json} {found : List α}
    (told : (∃ value small, part = some value ∧ Decoder.list decode value small = .ok found) ∨
      part = none ∧ found = []) :
    List.Forall₂ (fun item a => ∃ small, decode item small = .ok a)
      ((part.bind Json.items?).getD []) found := by
  rcases told with ⟨value, small, rfl, reads⟩ | ⟨rfl, rfl⟩
  · obtain ⟨items, rfl, each⟩ := Decoder.list_eq_ok reads
    exact each
  · exact .nil

/-- Variables are bound to the names that are listed of their targets. -/
theorem told_targets {items : List Json} {declarators : List Declarator}
    (each : List.Forall₂ (fun item declarator => ∃ small,
      (Declarator.decode : Decoder whole Declarator) item small = .ok declarator) items declarators) :
    (items.flatMap targetNames).filterMap ExportedName.listed =
      declarators.filterMap Declarator.name := by
  induction each with
  | nil => rfl
  | @cons item declarator _ _ head _ ih =>
    obtain ⟨_, reads⟩ := head
    rw [List.flatMap_cons, List.filterMap_append, Declarator.told_target reads, ih]
    cases named : declarator.name <;> simp [named]

/-- The variables of a declaration are bound to the names that are listed of it. -/
theorem VariableDeclaration.told_names {declaration : VariableDeclaration}
    (taken : Tagged.takeApart title variants place value = .ok tagged)
    (reads : Tagged.variables tagged = .ok declaration) :
    ((value.partItems "declarations" 1).flatMap targetNames).filterMap ExportedName.listed =
      declaration.declarators.filterMap Declarator.name := by
  obtain ⟨_, ⟨declarators, told, rfl⟩, _, -, rfl⟩ :=
    (((Shape.Finds.defaulted _ _ _).map _).seq (.anything _)).decode reads
  simp only [Tagged.part?_content taken] at told
  exact told_targets (told_items told)

/-- The names in an export are those that its parts tell. -/
theorem told_exportNames {items : List Json} {names : List (Option Node)}
    (each : List.Forall₂ (fun item name => ∃ small,
      (decodeExportName : Decoder whole (Option Node)) item small = .ok name) items names) :
    (items.filterMap fun specifier => (specifier.part? "exported" 0).bind namedBy) =
      names.filterMap fun name => name.bind Node.resolvedName := by
  induction each with
  | nil => rfl
  | @cons item name _ _ head _ ih =>
    obtain ⟨_, reads⟩ := head
    have same : (item.part? "exported" 0).bind namedBy = name.bind Node.resolvedName := by
      rcases (Shape.Finds.optional _ _).decode reads with
        ⟨told, _, node, there, readsNode, rfl⟩ | ⟨missing, rfl⟩
      · rw [show item.part? "exported" 0 = some told from there]
        exact Node.told_name readsNode
      · cases part : item.part? "exported" 0 with
        | none => rfl
        | some told =>
          have missing : (item.part? "exported" 0).getD .null = .null := missing
          rw [part] at missing
          obtain rfl : told = .null := missing
          rfl
    rw [List.filterMap_cons, List.filterMap_cons, same, ih]

/-- What is exported by default has the name that it tells, or the default name. -/
theorem DefaultExport.told_name {small : sizeOf value < sizeOf whole} {declaration : DefaultExport}
    (reads : DefaultExport.decode value small = .ok declaration) (source : Source) (span : Span) :
    (source.defaultStatement declaration span).exports = [defaultNameOf value] := by
  obtain ⟨tagged, taken, reads⟩ := bind_eq_ok.mp reads
  rw [defaultNameOf, kindOf, taken]
  split at reads
  · rename_i kind
    obtain ⟨definition, readsFunction, same⟩ := bind_eq_ok.mp reads
    cases same
    simp [kind, Source.defaultStatement, Function.told_name taken readsFunction]
  · rename_i kind
    obtain ⟨definition, readsFunction, same⟩ := bind_eq_ok.mp reads
    cases same
    simp [kind, Source.defaultStatement, Function.told_name taken readsFunction]
  · rename_i kind
    obtain ⟨definition, readsClass, same⟩ := bind_eq_ok.mp reads
    cases same
    simp [kind, Source.defaultStatement, Class.told_name taken readsClass]
  · rename_i kind
    obtain ⟨definition, -, same⟩ := bind_eq_ok.mp reads
    cases same
    simp [kind, Source.defaultStatement]
  · rename_i noFunction noExpression noClass _
    unfold Tagged.catchAll at reads
    split at reads <;> cases reads
    simp only [Source.defaultStatement]

end Parts

/-- The variables of an exported declaration export the names that they are bound to. -/
theorem Source.exports_variablesStatement (source : Source) (exported : Option Span)
    (declaration : VariableDeclaration) :
    (source.variablesStatement exported declaration).exports =
      if exported.isSome then declaration.declarators.filterMap Declarator.name else [] := by
  cases exported with
  | none => exact (source.declarators_private _ _).1
  | some span =>
    have each : ∀ (whole : Option Span) (declarators : List Declarator),
        ((declarators.map (source.declarator true whole)).foldr (· ++ ·) ({} : ModuleOutline)).exports =
          declarators.filterMap Declarator.name := by
      intro whole declarators
      induction declarators with
      | nil => rfl
      | cons variable_ rest ih =>
        have here : (source.declarator true whole variable_).exports = variable_.name.toList := by
          rw [source.declarator_exported, ModuleOutline.exportedAs,
            (source.declarator_private whole variable_).1, List.nil_append]
        rw [List.map_cons, List.foldr_cons, ModuleOutline.exports_append, here, ih]
        cases named : variable_.name <;> simp [named]
    exact each _ _

/-- The names that a statement exports are listed unless they are bound inside patterns. -/
theorem Source.exports_statement (source : Source) (exported : Option Span) {place : Place} {value : Json}
    {statement : Statement} (reads : Statement.decode place value = .ok statement) :
    (source.statement exported statement).exports =
      (exportedNames place exported.isSome value).filterMap ExportedName.listed := by
  rw [Statement.decode] at reads
  obtain ⟨tagged, taken, reads⟩ := bind_eq_ok.mp reads
  rw [exportedNames, kindOf, taken]
  split at reads
  · rename_i kind
    obtain ⟨definition, readsFunction, same⟩ := bind_eq_ok.mp reads
    cases same
    simp only [kind, Source.statement, Source.functionStatement, exportsOf,
      (source.function_name _ _ _ _).1, Function.told_name taken readsFunction]
    cases exported <;> rfl
  · rename_i kind
    obtain ⟨declaration, readsVariables, same⟩ := bind_eq_ok.mp reads
    cases same
    simp only [kind, Source.statement, source.exports_variablesStatement]
    rw [← VariableDeclaration.told_names taken readsVariables]
    cases exported <;> rfl
  · rename_i kind
    obtain ⟨definition, readsClass, same⟩ := bind_eq_ok.mp reads
    cases same
    simp only [kind, Source.statement, Source.classStatement, exportsOf, Source.classDef,
      Class.told_name taken readsClass]
    cases exported <;> rfl
  · rename_i kind
    obtain ⟨declaration, -, same⟩ := bind_eq_ok.mp reads
    cases same
    simp only [kind, Source.statement]
    rfl
  · rename_i kind
    obtain ⟨_, ⟨_, ⟨inner, toldInner, rfl⟩, names, toldNames, rfl⟩, span, -, rfl⟩ :=
      ((((Shape.Finds.optional _ _).map _).seq (.defaulted _ _ _)).seq (.anything _)).decode reads
    simp only [Tagged.part?_content taken] at toldInner toldNames
    have listedNames := told_exportNames (told_items toldNames)
    simp only [kind, Json.partItems, List.filterMap_append, ExportedName.filterMap_listed_whole]
    rw [Source.statement.eq_def, ModuleOutline.exports_append, ← listedNames]
    congr 1
    rcases toldInner with ⟨told, small, declared, there, readsInner, rfl⟩ | ⟨missing, rfl⟩
    · have isTold : value.part? "declaration" 1 = some told := there
      show (source.statement (some span) declared).exports = _
      split
      · rename_i same isSame
        obtain rfl : told = same := Option.some.inj (isTold.symm.trans isSame)
        exact Source.exports_statement source (some span) readsInner
      · rename_i isNone
        rw [isTold] at isNone
        cases isNone
    · have isMissing : (value.part? "declaration" 1).getD .null = .null := missing
      show ([] : List String) = _
      split
      · rename_i told isTold
        rw [isTold] at isMissing
        obtain rfl : told = .null := isMissing
        rw [exportedNames]
        rfl
      · rfl
  · rename_i kind
    obtain ⟨_, ⟨declaration, ⟨told, _, there, readsDeclaration⟩, rfl⟩, span, -, rfl⟩ :=
      (((Shape.Finds.required _ _).map _).seq (.anything _)).decode reads
    simp only [Tagged.part?_content taken] at there
    simp only [kind, Source.statement, DefaultExport.told_name readsDeclaration,
      show value.part? "declaration" 1 = some told from there]
    rfl
  · unfold Tagged.catchAll at reads
    split at reads <;> cases reads
    -- No other kind of statement exports anything.
    split <;> simp_all [Source.statement]
termination_by sizeOf value

/-- The statements of a program that are read. -/
def SyntaxTree.statements (tree : SyntaxTree) : List Json :=
  tree.body.filter (decodes (Statement.decode .outer))

/-- The names that the statements of a program export, in the order of the source. -/
def SyntaxTree.exportedNames (tree : SyntaxTree) : List ExportedName :=
  tree.statements.flatMap (Script.exportedNames .outer false)

/-- The exports of a program are the names that its statements export, each as often as it is exported
and in the order of the source, except for those that are bound inside patterns; so they are complete
exactly when no statement exports a name that is bound inside a pattern. -/
theorem exports_eq_listed (text : List Char) (docWindow : Nat) (tree : SyntaxTree) :
    (outline text docWindow tree).exports = tree.exportedNames.filterMap ExportedName.listed ∧
      ((outline text docWindow tree).exports = tree.exportedNames.map ExportedName.name ↔
        ∀ exported ∈ tree.exportedNames, exported.isPart = false) := by
  have all : (outline text docWindow tree).exports =
      tree.exportedNames.filterMap ExportedName.listed := by
    obtain ⟨body⟩ := tree
    induction body with
    | nil => rfl
    | cons node rest ih =>
      rw [outline_cons, ModuleOutline.exports_append, ih]
      simp only [SyntaxTree.exportedNames, SyntaxTree.statements]
      cases reads : Statement.decode .outer node with
      | ok statement =>
        have kept : decodes (Statement.decode .outer) node = true := by
          simp [decodes, reads, Except.isOk, Except.toBool]
        rw [List.filter_cons_of_pos kept, List.flatMap_cons, List.filterMap_append, Source.node, reads]
        exact congrArg (· ++ _) (Source.exports_statement _ none reads)
      | error failure =>
        have dropped : ¬decodes (Statement.decode .outer) node = true := by
          simp [decodes, reads, Except.isOk, Except.toBool]
        rw [List.filter_cons_of_neg dropped, Source.node, reads]
        rfl
  refine ⟨all, ?_⟩
  rw [all]
  exact ExportedName.filterMap_listed_eq_iff _

end SourceOutline.Script
