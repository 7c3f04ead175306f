import SourceOutline.Proofs.Outline.Parameters
import SourceOutline.Proofs.Script.Exports

/-! The two spellings of class members, and what the outline of a class makes of each. -/

namespace SourceOutline

namespace Script

/-- How the members of a class are spelled. -/
inductive Spelling where
  /-- A method holds its function, and private names and texts are keys like others. -/
  | standard
  /-- A method is its function, and what is private has kinds of its own. -/
  | native
  deriving DecidableEq

/-- The key of a member, which is not computed. -/
inductive Key where
  /-- A name. -/
  | plain (name : String)
  /-- A private name, without the sign in front of it. -/
  | hidden (name : String)
  /-- A text. -/
  | quoted (text : String)
  deriving DecidableEq

namespace Key

/-- The name that a key gives to a member. -/
def name : Key → String
  | plain name => name
  | hidden name => "#" ++ name
  | quoted text => text

/-- The key is a private name. -/
def isHidden : Key → Bool
  | hidden _ => true
  | _ => false

/-- A node is a key in a spelling. -/
inductive IsNode : Spelling → Key → Node → Prop where
  /-- Names are spelled alike. -/
  | plain {spelling : Spelling} {name : String} {node : Node} (kind : node.kind = "Identifier")
    (named : node.name = some (.string name)) : IsNode spelling (.plain name) node
  /-- A private name is a name of its own kind. -/
  | private_ {name : String} {node : Node} (kind : node.kind = "PrivateIdentifier")
    (named : node.name = some (.string name)) : IsNode .standard (.hidden name) node
  /-- A private name holds a name. -/
  | wrapped {name : String} {node inner : Node} (kind : node.kind = "PrivateName")
    (id : node.id = some inner) (innerKind : inner.kind = "Identifier")
    (named : inner.name = some (.string name)) : IsNode .native (.hidden name) node
  /-- A text is a literal like others. -/
  | literal {text : String} {node : Node} (kind : node.kind = "Literal")
    (value : node.value = some (.string text)) : IsNode .standard (.quoted text) node
  /-- A text is a literal of its own kind. -/
  | text {text : String} {node : Node} (kind : node.kind = "StringLiteral")
    (value : node.value = some (.string text)) : IsNode .native (.quoted text) node

/-- A key gives its name in either spelling. -/
theorem IsNode.resolvedName {spelling : Spelling} {key : Key} {node : Node}
    (spelled : key.IsNode spelling node) : node.resolvedName = some key.name := by
  cases spelled with
  | plain kind named | private_ kind named =>
    simp [Node.resolvedName, kind, Node.nameText, named, Json.text?, name]
  | wrapped kind id innerKind named =>
    simp [Node.resolvedName, kind, id, Node.nameText, named, Json.text?, name]
  | literal kind value | text kind value =>
    simp [Node.resolvedName, kind, value, Json.text?, name]

end Key

/-- A method, as far as an outline lists it. -/
structure Method where
  /-- The key. -/
  key : Key
  /-- The parameters in order. -/
  parameters : List Pattern
  /-- The method is asynchronous. -/
  isAsync : Bool
  /-- The type of the result. -/
  returns : Option TypeNote
  /-- The source of the method. -/
  span : Span

/-- The kind of a node. -/
def TellsKind (value : Json) (kind : String) : Prop :=
  value.get? "type" = some (.string kind)

/-- The key of a member. -/
def TellsKey (spelling : Spelling) (value : Json) (key : Key) : Prop :=
  ∃ told node, value.get? "key" = some told ∧ Node.decode .inner told = .ok node ∧
    key.IsNode spelling node

/-- Where a node stands in the source. -/
def TellsSpan (value : Json) (span : Span) : Prop :=
  ∃ told, value.get? "loc" = some told ∧ Locates told span

/-- A value is read as a type wherever it stands. -/
def IsTypeNote (told : Json) (note : TypeNote) : Prop :=
  ∀ (whole : Json) (small : sizeOf told < sizeOf whole), TypeNote.decode .inner told small = .ok note

/-- A value is read as a declared name wherever it stands. -/
def IsName (told : Json) (id : Identifier) : Prop :=
  ∀ (whole : Json) (small : sizeOf told < sizeOf whole), Identifier.decode .inner told small = .ok id

/-- The type of what a function returns. -/
def TellsReturns (value : Json) (returns : Option TypeNote) : Prop :=
  TellsOption IsTypeNote (value.get? "returnType") returns

/-- The parameters of a function, which may be left out when there are none. -/
def TellsParameters (value : Json) (parameters : List Pattern) : Prop :=
  (∃ items, value.get? "params" = some (.array items) ∧
    List.Forall₂ (fun item pattern => Pattern.decode item = .ok pattern) items parameters) ∨
  value.get? "params" = none ∧ parameters = []

/-- Whether a function is asynchronous, which it is not when nothing is said. -/
def TellsAsync (value : Json) (isAsync : Bool) : Prop :=
  value.get? "async" = some (.bool isAsync) ∨ value.get? "async" = none ∧ isAsync = false

/-- A member of a class: a method, a property, or a node that is spelled in one way only. -/
inductive ClassPart where
  /-- A method. -/
  | method (method : Method)
  /-- A property. -/
  | property (key : Key)
  /-- Any other node. -/
  | other (node : Json)

/-- The part is a method with a private name. -/
def ClassPart.isHiddenMethod : ClassPart → Bool
  | method definition => definition.key.isHidden
  | _ => false

/-- A value is a part of a class in a spelling; other fields may stand beside those that are told. -/
inductive Spells : Spelling → ClassPart → Json → Prop where
  /-- A method that holds its function, which may be followed by its type. -/
  | methodDefinition {method : Method} {value function : Json} {id : Option Identifier}
    {inner outer : Option TypeNote} {span : Span} (kind : TellsKind value "MethodDefinition")
    (key : TellsKey .standard value method.key) (holds : value.get? "value" = some function)
    (declared : TellsOption IsName (function.get? "id") id)
    (parameters : TellsParameters function method.parameters)
    (isAsync : TellsAsync function method.isAsync) (innerReturns : TellsReturns function inner)
    (functionSpan : TellsSpan function span) (outerReturns : TellsReturns value outer)
    (returns : method.returns = (inner <|> outer)) (whole : TellsSpan value method.span) :
    Spells .standard (.method method) value
  /-- A property. -/
  | propertyDefinition {key : Key} {value : Json} (kind : TellsKind value "PropertyDefinition")
    (told : TellsKey .standard value key) : Spells .standard (.property key) value
  /-- A method that is its function; one with a private name has a kind of its own. -/
  | classMethod {method : Method} {value : Json}
    (kind : TellsKind value (if method.key.isHidden then "ClassPrivateMethod" else "ClassMethod"))
    (key : TellsKey .native value method.key) (parameters : TellsParameters value method.parameters)
    (isAsync : TellsAsync value method.isAsync) (returns : TellsReturns value method.returns)
    (whole : TellsSpan value method.span) : Spells .native (.method method) value
  /-- A property; one with a private name has a kind of its own. -/
  | classProperty {key : Key} {value : Json}
    (kind : TellsKind value (if key.isHidden then "ClassPrivateProperty" else "ClassProperty"))
    (told : TellsKey .native value key) : Spells .native (.property key) value
  /-- Any other node is the same in both spellings. -/
  | other {spelling : Spelling} {value : Json} : Spells spelling (.other value) value

section Decoding

variable {whole : Json} {fields : List (String × Json)}
  {inFields : ∀ field ∈ fields, sizeOf field.2 < sizeOf whole}

/-- Patterns are read one by one. -/
theorem eachOf_patterns {items : List Json} {patterns : List Pattern}
    (inside : ∀ item ∈ items, sizeOf item < sizeOf whole)
    (each : List.Forall₂ (fun item pattern => Pattern.decode item = .ok pattern) items patterns) :
    Decoder.eachOf Pattern.part items inside = .ok patterns := by
  induction each with
  | nil => rfl
  | cons head _ ih => simp [Decoder.eachOf, Pattern.part, head, ih, bind, Except.bind, pure, Except.pure]

theorem ofFields_parameters {parameters : List Pattern}
    (told : TellsParameters (.object fields) parameters) :
    (Shape.defaulted "params" [] (.list Pattern.part)).ofFields fields inFields = .ok parameters := by
  rcases told with ⟨items, there, each⟩ | ⟨missing, rfl⟩
  · exact Shape.ofFields_field_of_told there fun small => eachOf_patterns _ each
  · exact Shape.ofFields_field_of_untold missing

theorem ofFields_async {isAsync : Bool} (told : TellsAsync (.object fields) isAsync) :
    (Shape.defaulted "async" false .bool).ofFields fields inFields = .ok isAsync := by
  rcases told with there | ⟨missing, rfl⟩
  · exact Shape.ofFields_field_of_told there fun _ => rfl
  · exact Shape.ofFields_field_of_untold missing

theorem ofFields_returns {returns : Option TypeNote} (told : TellsReturns (.object fields) returns) :
    (Shape.optional "returnType" (TypeNote.decode .inner)).ofFields fields inFields = .ok returns := by
  refine Shape.ofFields_optional_of_told (fun value note read => ⟨?_, fun small => read _ small⟩) told
  rintro rfl
  cases read (.array [.null]) (by decide)

theorem ofFields_name {id : Option Identifier}
    (told : TellsOption IsName ((Json.object fields).get? "id") id) :
    (Shape.optional "id" (Identifier.decode .inner)).ofFields fields inFields = .ok id := by
  refine Shape.ofFields_optional_of_told (fun value name read => ⟨?_, fun small => read _ small⟩) told
  rintro rfl
  cases read (.array [.null]) (by decide)

theorem ofFields_span {span : Span} (told : TellsSpan (.object fields) span) :
    (Shape.required "loc" (Span.decode .inner)).ofFields fields inFields = .ok span := by
  obtain ⟨value, there, located⟩ := told
  exact Shape.ofFields_field_of_told there fun small => located _ small

/-- A key is read as a node of its name. -/
theorem ofFields_key {spelling : Spelling} {key : Key}
    (inFields : ∀ field ∈ fields, sizeOf field.2 < sizeOf whole)
    (told : TellsKey spelling (.object fields) key) :
    ∃ node, (Shape.required "key" (Node.part .inner)).ofFields fields inFields = .ok node ∧
      node.resolvedName = some key.name := by
  obtain ⟨value, node, there, decoded, spelled⟩ := told
  exact ⟨node, Shape.ofFields_field_of_told there fun _ => decoded, spelled.resolvedName⟩

end Decoding

/-- The outline of a method. -/
def Method.outline (source : Source) (method : Method) : FunctionOutline :=
  source.function (some method.key.name)
    ⟨none, method.parameters, method.isAsync, method.returns, method.span⟩ false method.span

/-- What a part adds to the outline of its class. -/
def ClassPart.outline (source : Source) : ClassPart → Option Source.MemberOutline
  | method definition => some (.method (definition.outline source))
  | property key => some (.property key.name)
  | other node => (Member.decode node).toOption.bind source.member

/-- The note on a part that does not decode. -/
def ClassPart.notes (owner : String) : ClassPart → List Omission
  | other node =>
    match Member.decode node with
    | .ok _ => []
    | .error error => [undecoded owner node error]
  | _ => []

/-- A value is read as a member that adds what the part does. -/
def ReadsAs (value : Json) (part : ClassPart) : Prop :=
  ∃ member, Member.decode value = .ok member ∧ ∀ source : Source, source.member member = part.outline source

/-- A function is read from the parts that an object tells of it. -/
theorem decode_function {whole function : Json} {small : sizeOf function < sizeOf whole}
    {declaredId : Option Identifier} {parameters : List Pattern} {isAsync : Bool} {returns : Option TypeNote}
    {span : Span} (declared : TellsOption IsName (function.get? "id") declaredId)
    (told : TellsParameters function parameters) (async : TellsAsync function isAsync)
    (type : TellsReturns function returns) (place : TellsSpan function span) :
    Function.decode function small = .ok ⟨declaredId, parameters, isAsync, returns, span⟩ := by
  obtain ⟨_, there, _⟩ := id place
  obtain ⟨fields, rfl⟩ := exists_object_of_get? there
  refine Shape.decode_object_eq_ok.mpr ?_
  simp only [Function.shape, Shape.ofFields_seq_eq_ok, Shape.ofFields_map_eq_ok]
  exact ⟨_, _, ⟨_, _, ⟨_, _, ⟨_, _, ⟨_, ofFields_name declared, rfl⟩, ofFields_parameters told, rfl⟩,
    ofFields_async async, rfl⟩, ofFields_returns type, rfl⟩, ofFields_span place, rfl⟩

/-- A property of any of its kinds is read from its key. -/
theorem decode_property {fields : List (String × Json)} {spelling : Spelling} {key : Key}
    {kind : String} (told : TellsKind (.object fields) kind)
    (known : kind ∈ ["PropertyDefinition", "ClassProperty", "ClassPrivateProperty"])
    (keyed : TellsKey spelling (.object fields) key) : ReadsAs (.object fields) (.property key) := by
  obtain ⟨node, found, named⟩ := ofFields_key (fun _ member => sizeOf_lt_object member) keyed
  have reads : ∀ (kind : String) (fits : sizeOf (Json.object fields) ≤ sizeOf (Json.object fields)),
      Member.propertyKey ⟨some kind, .object fields, fits⟩ kind = .ok node :=
    fun _ _ => Shape.decode_object_eq_ok.mpr found
  refine ⟨.property node, ?_, fun source => by simp [Source.member, named, ClassPart.outline]⟩
  rw [Member.decode, bind_eq_ok]
  refine ⟨_, Tagged.takeApart_object told, ?_⟩
  simp only [List.mem_cons, List.not_mem_nil, or_false] at known
  rcases known with rfl | rfl | rfl <;> exact bind_eq_ok.mpr ⟨node, reads _ _, rfl⟩

/-- A spelling in which a part is listed: methods with private names are listed in one of them only. -/
def Spelling.lists : Spelling → ClassPart → Bool
  | standard, _ => true
  | native, part => !part.isHiddenMethod

/-- What a value that spells a part is read as. -/
inductive Reading (spelling : Spelling) (part : ClassPart) (value : Json) : Prop where
  /-- The part. -/
  | listed (lists : spelling.lists part = true) (quiet : ∀ owner, part.notes owner = [])
    (reads : ReadsAs value part)
  /-- A member of a kind that is not known. -/
  | dropped (lists : spelling.lists part = false) (quiet : ∀ owner, part.notes owner = [])
    (reads : Member.decode value = .ok .other)
  /-- Whatever the value is. -/
  | other (same : part = .other value)

/-- A method that holds its function is read as that method. -/
theorem Spells.reading_standard {part : ClassPart} {value : Json}
    (spelled : Spells .standard part value) : Reading .standard part value := by
  cases spelled with
  | @methodDefinition method value function id inner outer span kind key holds declared parameters
      isAsync innerReturns functionSpan outerReturns returns whole =>
    obtain ⟨fields, rfl⟩ := exists_object_of_get? kind
    obtain ⟨node, keyed, named⟩ := ofFields_key (fun _ member => sizeOf_lt_object member) key
    refine .listed rfl (fun _ => rfl) ⟨.methodValue node
      ⟨id, method.parameters, method.isAsync, inner, span⟩ outer method.span, ?_, fun source => ?_⟩
    · rw [Member.decode, bind_eq_ok]
      refine ⟨_, Tagged.takeApart_object kind, Shape.decode_object_eq_ok.mpr ?_⟩
      simp only [Shape.ofFields_seq_eq_ok, Shape.ofFields_map_eq_ok]
      refine ⟨_, _, ⟨_, _, ⟨_, _, ⟨_, keyed, rfl⟩, ?_, rfl⟩, ofFields_returns outerReturns, rfl⟩,
        ofFields_span whole, rfl⟩
      exact Shape.ofFields_field_of_told holds fun small =>
        decode_function declared parameters isAsync innerReturns functionSpan
    · simp only [Source.member, ClassPart.outline, Method.outline, Source.keyName, named, returns]
      rfl
  | propertyDefinition kind told =>
    obtain ⟨fields, rfl⟩ := exists_object_of_get? kind
    exact .listed rfl (fun _ => rfl) (decode_property kind (by simp) told)
  | other => exact .other rfl

/-- A method that is its function is read as that method, unless its name is private. -/
theorem Spells.reading_native {part : ClassPart} {value : Json} (spelled : Spells .native part value) :
    Reading .native part value := by
  cases spelled with
  | @classMethod method value kind key parameters isAsync returns whole =>
    obtain ⟨fields, rfl⟩ := exists_object_of_get? kind
    cases hidden : method.key.isHidden with
    | true =>
      rw [hidden] at kind
      refine .dropped (by simp [Spelling.lists, ClassPart.isHiddenMethod, hidden]) (fun _ => rfl) ?_
      rw [Member.decode, bind_eq_ok]
      exact ⟨_, Tagged.takeApart_object kind, rfl⟩
    | false =>
      rw [hidden] at kind
      obtain ⟨node, keyed, named⟩ := ofFields_key (fun _ member => sizeOf_lt_object member) key
      refine .listed (by simp [Spelling.lists, ClassPart.isHiddenMethod, hidden]) (fun _ => rfl) ⟨.method node
        method.parameters method.isAsync method.returns method.span, ?_, fun source => ?_⟩
      · rw [Member.decode, bind_eq_ok]
        refine ⟨_, Tagged.takeApart_object kind, Shape.decode_object_eq_ok.mpr ?_⟩
        simp only [Shape.ofFields_seq_eq_ok, Shape.ofFields_map_eq_ok]
        exact ⟨_, _, ⟨_, _, ⟨_, _, ⟨_, _, ⟨_, keyed, rfl⟩, ofFields_parameters parameters, rfl⟩,
          ofFields_async isAsync, rfl⟩, ofFields_returns returns, rfl⟩, ofFields_span whole, rfl⟩
      · simp only [Source.member, ClassPart.outline, Method.outline, Source.keyName, named]
        rfl
  | @classProperty key value kind told =>
    obtain ⟨fields, rfl⟩ := exists_object_of_get? kind
    refine .listed rfl (fun _ => rfl) (decode_property kind ?_ told)
    split <;> simp
  | other => exact .other rfl

/-- A value that spells a part is read as that part, unless the spelling does not list it. -/
theorem Spells.reading {spelling : Spelling} {part : ClassPart} {value : Json}
    (spelled : Spells spelling part value) : Reading spelling part value := by
  cases spelling with
  | standard => exact spelled.reading_standard
  | native => exact spelled.reading_native

/-- What the values that spell some parts add to a class, and the notes on them. -/
theorem decodeEach_spelled (source : Source) (owner : String) {spelling : Spelling}
    {parts : List ClassPart} {values : List Json}
    (spelled : List.Forall₂ (Spells spelling) parts values) :
    (decodeEach owner Member.decode values).1.filterMap source.member =
        (parts.filter spelling.lists).filterMap (ClassPart.outline source) ∧
      (decodeEach owner Member.decode values).2 = parts.flatMap (ClassPart.notes owner) := by
  induction spelled with
  | nil => exact ⟨rfl, rfl⟩
  | @cons part value parts values head _ ih =>
    cases head.reading with
    | listed lists quiet reads =>
      obtain ⟨member, decoded, adds⟩ := reads
      rw [List.filter_cons_of_pos lists, List.filterMap_cons, ← adds source, ← ih.1,
        List.flatMap_cons, quiet, ← ih.2]
      simp only [decodeEach, decoded, List.filterMap_cons, List.nil_append, and_true]
    | dropped lists quiet reads =>
      rw [List.filter_cons_of_neg (by simp [lists]), ← ih.1, List.flatMap_cons, quiet, ← ih.2]
      simp only [decodeEach, reads, List.filterMap_cons, Source.member, List.nil_append, and_self]
    | other same =>
      subst same
      have lists : spelling.lists (.other value) = true := by cases spelling <;> rfl
      rw [List.filter_cons_of_pos lists, List.filterMap_cons, ← ih.1, List.flatMap_cons, ← ih.2]
      simp only [decodeEach, ClassPart.outline, ClassPart.notes]
      cases Member.decode value <;> simp [Except.toOption, List.filterMap_cons]

/-- The method that a part adds to the outline of its class. -/
def ClassPart.method? (source : Source) (part : ClassPart) : Option FunctionOutline :=
  match part.outline source with
  | some (.method function) => some function
  | _ => none

/-- The property that a part adds to the outline of its class. -/
def ClassPart.property? (source : Source) (part : ClassPart) : Option String :=
  match part.outline source with
  | some (.property name) => some name
  | _ => none

/-- The outline of a class whose members spell some parts lists the methods and properties among those
that the spelling lists. -/
theorem Source.classDef_spelled (source : Source) (definition : Class) (span : Span)
    {spelling : Spelling} {parts : List ClassPart} {values : List Json}
    (spelled : List.Forall₂ (Spells spelling) parts values) :
    source.classDef { definition with members := values } span =
      ({ (source.classDef { definition with members := [] } span).1 with
          methods := (parts.filter spelling.lists).filterMap (ClassPart.method? source)
          properties := (parts.filter spelling.lists).filterMap (ClassPart.property? source) },
        parts.flatMap (ClassPart.notes ((definition.name.getD anonymous) ++ "."))) := by
  obtain ⟨listed, notes⟩ := decodeEach_spelled source ((definition.name.getD anonymous) ++ ".") spelled
  simp only [Source.classDef, Class.name] at listed notes ⊢
  rw [listed, notes, List.filterMap_filterMap, List.filterMap_filterMap]
  congr 3
  · funext part
    unfold ClassPart.method?
    rcases part.outline source with _ | _ | _ <;> rfl
  · funext part
    unfold ClassPart.property?
    rcases part.outline source with _ | _ | _ <;> rfl

/-- Methods with private names are no properties. -/
theorem filterMap_property?_lists (source : Source) (spelling : Spelling) (parts : List ClassPart) :
    (parts.filter spelling.lists).filterMap (ClassPart.property? source) =
      parts.filterMap (ClassPart.property? source) := by
  induction parts with
  | nil => rfl
  | cons part rest ih =>
    cases lists : spelling.lists part with
    | true => rw [List.filter_cons_of_pos lists, List.filterMap_cons, List.filterMap_cons, ih]
    | false =>
      rw [List.filter_cons_of_neg (by simp [lists]), ih, List.filterMap_cons]
      cases part with
      | method definition => rfl
      | property key => cases spelling <;> cases lists
      | other node => cases spelling <;> cases lists

/-- All methods are listed only when none of them has a private name and the spelling is native. -/
theorem lists_of_filterMap_method? (source : Source) {parts : List ClassPart}
    (same : (parts.filter Spelling.native.lists).filterMap (ClassPart.method? source) =
      parts.filterMap (ClassPart.method? source)) :
    ∀ part ∈ parts, part.isHiddenMethod = false := by
  induction parts with
  | nil => simp
  | cons part rest ih =>
    have fewer : ((rest.filter Spelling.native.lists).filterMap (ClassPart.method? source)).length ≤
        (rest.filterMap (ClassPart.method? source)).length :=
      (List.filter_sublist.filterMap _).length_le
    have lengths := congrArg List.length same
    cases hidden : part.isHiddenMethod with
    | true =>
      -- The method itself is missing on the left.
      obtain ⟨definition, rfl⟩ : ∃ definition, part = .method definition := by
        cases part <;> first | exact ⟨_, rfl⟩ | cases hidden
      rw [List.filter_cons_of_neg (by simp [Spelling.lists, hidden])] at lengths
      simp only [List.filterMap_cons, ClassPart.method?, ClassPart.outline, List.length_cons] at lengths
      omega
    | false =>
      rw [List.filter_cons_of_pos (by simp [Spelling.lists, hidden]), List.filterMap_cons,
        List.filterMap_cons] at same
      have rest_same : (rest.filter Spelling.native.lists).filterMap (ClassPart.method? source) =
          rest.filterMap (ClassPart.method? source) := by
        split at same
        · exact same
        · exact (List.cons.inj same).2
      exact List.forall_mem_cons.mpr ⟨hidden, ih rest_same⟩

/-- The members of a class give the same outline and the same notes in both spellings, except that
methods with private names are missing when they are spelled natively. -/
theorem classDef_spellings (source : Source) (definition : Class) (span : Span)
    {parts : List ClassPart} {standard native : List Json}
    (first : List.Forall₂ (Spells .standard) parts standard)
    (second : List.Forall₂ (Spells .native) parts native) :
    let inStandard := source.classDef { definition with members := standard } span
    let inNative := source.classDef { definition with members := native } span
    inNative.2 = inStandard.2 ∧
      inStandard.1.methods = parts.filterMap (ClassPart.method? source) ∧
      inNative.1 = { inStandard.1 with
        methods := (parts.filter fun part => !part.isHiddenMethod).filterMap (ClassPart.method? source) } ∧
      (inNative.1 = inStandard.1 ↔ ∀ part ∈ parts, part.isHiddenMethod = false) := by
  have all : parts.filter Spelling.standard.lists = parts := List.filter_eq_self.mpr fun _ _ => rfl
  have inFirst := source.classDef_spelled definition span first
  have inSecond := source.classDef_spelled definition span second
  rw [filterMap_property?_lists] at inFirst inSecond
  rw [all] at inFirst
  rw [inFirst, inSecond]
  refine ⟨rfl, rfl, rfl, fun same => lists_of_filterMap_method? source (congrArg ClassOutline.methods same),
    fun shown => ?_⟩
  have none_left : parts.filter Spelling.native.lists = parts :=
    List.filter_eq_self.mpr fun part member => by simp [Spelling.lists, shown part member]
  rw [none_left]

/-- A class whose only method has a private name has no method when it is spelled natively. -/
theorem classDef_spellings_private :
    ∃ (definition : Class) (parts : List ClassPart) (standard native : List Json),
      List.Forall₂ (Spells .standard) parts standard ∧ List.Forall₂ (Spells .native) parts native ∧
        let source : Source := ⟨sourceLines "class A { #m() {} }".toList, 3⟩
        (source.classDef { definition with members := standard } definition.span).1.methods.length = 1 ∧
          (source.classDef { definition with members := native } definition.span).1.methods = [] := by
  let place : Json := .object [("line", .int 1), ("column", .int 10)]
  let location : Json := .object [("start", place), ("end", place)]
  let span : Span := ⟨⟨1, 10⟩, ⟨1, 10⟩⟩
  let identifier : Json := .object [("type", .string "Identifier"), ("name", .string "m")]
  let method : Method := ⟨.hidden "m", [], false, none, span⟩
  have located : Locates location span := fun _ _ => rfl
  have named : Node.decode .inner identifier =
      .ok (.mk "Identifier" (some (.string "m")) none none none none none) := by
    rw [Node.decode]
    rfl
  have wrapped : Node.decode .inner (.object [("type", .string "PrivateName"), ("id", identifier)]) =
      .ok (.mk "PrivateName" none (some (.mk "Identifier" (some (.string "m")) none none none none none))
        none none none none) := by
    rw [Node.decode]
    refine Shape.decode_object_eq_ok.mpr ?_
    simp only [Shape.ofFields_seq_eq_ok, Shape.ofFields_map_eq_ok]
    refine ⟨_, _, ⟨_, _, ⟨_, _, ⟨_, _, ⟨_, _, ⟨_, _, ⟨_, rfl, rfl⟩, rfl, rfl⟩, ?_, rfl⟩, rfl, rfl⟩, rfl,
      rfl⟩, rfl, rfl⟩, rfl, rfl⟩
    refine Shape.ofFields_field_of_told rfl fun small => ?_
    show (Node.decode .inner identifier).map some = _
    rw [named]
    rfl
  have standard : Spells .standard (.method method) (.object [("type", .string "MethodDefinition"),
      ("key", .object [("type", .string "PrivateIdentifier"), ("name", .string "m")]),
      ("value", .object [("params", .array []), ("loc", location)]), ("loc", location)]) := by
    refine .methodDefinition rfl ⟨_, .mk "PrivateIdentifier" (some (.string "m")) none none none none none,
      rfl, ?_, .private_ rfl rfl⟩ rfl .missing (.inl ⟨[], rfl, .nil⟩) (.inr ⟨rfl, rfl⟩) .missing
      ⟨_, rfl, located⟩ .missing rfl ⟨_, rfl, located⟩
    rw [Node.decode]
    rfl
  have native : Spells .native (.method method) (.object [("type", .string "ClassPrivateMethod"),
      ("key", .object [("type", .string "PrivateName"), ("id", identifier)]), ("params", .array []),
      ("loc", location)]) :=
    .classMethod rfl ⟨_, _, rfl, wrapped, .wrapped rfl rfl rfl rfl⟩ (.inl ⟨[], rfl, .nil⟩)
      (.inr ⟨rfl, rfl⟩) .missing ⟨_, rfl, located⟩
  have agree := classDef_spellings ⟨sourceLines "class A { #m() {} }".toList, 3⟩ ⟨none, none, [], span⟩ span
    (.cons standard .nil) (.cons native .nil)
  refine ⟨⟨none, none, [], span⟩, _, _, _, .cons standard .nil, .cons native .nil, ?_, ?_⟩
  · rw [agree.2.1]
    rfl
  · rw [agree.2.2.1]
    rfl

end Script

end SourceOutline
