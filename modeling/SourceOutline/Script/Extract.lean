import SourceOutline.Json.Writer
import SourceOutline.Outline.Record
import SourceOutline.Script.Decode
import SourceOutline.Script.DocSearch

/-! The outline of a source whose syntax tree is given. -/

namespace SourceOutline.Script

open Text

/-- A source as far as the outline of its tree needs it. -/
structure Source where
  /-- The lines of the source. -/
  lines : List (List Char)
  /-- How many lines above a declaration are searched for its documentation. -/
  docWindow : Nat

/-- The name of what has none in the source. -/
def anonymous : String := "anonymous"

/-- The name that a default export is exported under. -/
def defaultName : String := "default"

namespace Node

/-- The name of a node that is a plain text. -/
def nameText (node : Node) : Option String :=
  -- Names of other forms do not count.
  node.name.bind Json.text?

/-- The name that a node stands for in a key or an export. -/
def resolvedName (node : Node) : Option String :=
  -- Private names are written behind a number sign.
  match node.kind with
  | "Identifier" => node.nameText
  | "PrivateIdentifier" => node.nameText.map ("#" ++ ·)
  | "PrivateName" => (node.id.bind nameText).map ("#" ++ ·)
  | "Literal" | "StringLiteral" => node.value.bind Json.text?
  | _ => none

/-- The value of a literal written out. -/
def writtenValue (node : Node) : Option String :=
  -- Texts are put between single quotes, all other values are written as they are.
  node.value.map fun value =>
    match value with
    | .string text => "'" ++ text ++ "'"
    | other => other.compact

/-- A literal as it is spelled, or else its value written out. -/
def literalText (node : Node) : Option String :=
  -- Every kind of literal has a name that ends the same way.
  if node.kind.endsWith "Literal" then
    node.raw <|> node.extra.join <|> node.writtenValue
  else none

end Node

namespace Source

/-- The text of a stretch of source, on one line. -/
def collapsed (source : Source) (span : Span) : Option String :=
  -- A stretch that does not exist has no text.
  (slice source.lines span).map fun text => String.ofList (collapse text)

/-- The text of a stretch of source, empty when it does not exist. -/
def textAt (source : Source) (span : Span) : String :=
  -- Line breaks stay.
  String.ofList ((slice source.lines span).getD [])

/-- What the comment block above a declaration says. -/
def docOf (source : Source) (span : Span) : DocComment :=
  -- Without a block nothing is said.
  (docAbove source.lines source.docWindow span.start.line).getD {}

/-- The type of a note as written, on one line and without the colon before it. -/
def typeText (source : Source) (note : TypeNote) : Option String := do
  -- The type itself is preferred to the note around it.
  let span ← (note.inner.bind Node.span) <|> note.span
  let text ← slice source.lines span
  let bare := trim ((trim text).dropWhile (· == ':'))
  if bare.isEmpty then none else some (String.ofList (collapse bare))

/-- The source of a default value. -/
def defaultText (source : Source) (node : Node) : String :=
  -- Literals and names are taken from the tree and not from the source.
  let named := if node.kind == "Identifier" then node.nameText else none
  (node.literalText <|> named <|> node.span.bind source.collapsed).getD ""

/-- A parameter as listed and its type; patterns that take values apart are not listed. -/
def parameter (source : Source) : Pattern → Option (String × Option String)
  | .identifier id => some (id.name, id.type.bind source.typeText)
  | .withDefault left right =>
    (source.parameter left).map fun inner =>
      (inner.1 ++ "=" ++ source.defaultText right, inner.2)
  | .rest argument type =>
    (source.parameter argument).map fun inner =>
      ("..." ++ inner.1, type.bind source.typeText <|> inner.2)
  | .property inner => source.parameter inner
  | .other => none

/-- The outline of a function whose definition takes up a stretch of source. -/
def function (source : Source) (name : Option String) (definition : Function)
    (isExpression : Bool) (span : Span) : FunctionOutline :=
  -- Line, documentation and text are those of the stretch.
  let doc := source.docOf span
  let start : FunctionOutline :=
    { name := name.getD anonymous, line := span.start.line, isAsync := definition.isAsync,
      isExpression := isExpression, returns := definition.returns.bind source.typeText,
      description := doc.description, tags := doc.tags, text := source.textAt span }
  (definition.parameters.filterMap source.parameter).foldl
    (fun outline listed => outline.addParameter listed.1 listed.2) start

/-- The name of a method. -/
def keyName (source : Source) (key : Node) : Option String :=
  -- A computed key is named by its source.
  key.resolvedName <|> (key.span.bind fun span => (slice source.lines span).map String.ofList)

/-- What a member adds to its class. -/
inductive MemberOutline where
  /-- A method. -/
  | method (function : FunctionOutline)
  /-- A property of a name. -/
  | property (name : String)

/-- What a member adds to its class, if anything. -/
def member (source : Source) : Member → Option MemberOutline
  | .methodValue key value returns span =>
    -- The type of the result may stand beside the function.
    let definition := { value with returns := value.returns <|> returns }
    some (.method (source.function (source.keyName key) definition false span))
  | .method key parameters isAsync returns span =>
    let definition : Function := ⟨none, parameters, isAsync, returns, span⟩
    some (.method (source.function (source.keyName key) definition false span))
  | .property key => key.resolvedName.map .property
  | .other => none

end Source

/-- The line of a node that could not be decoded, as far as it tells. -/
def lineHint (node : Json) : Option Nat :=
  -- The line is looked up without decoding anything else.
  (((node.get? "loc").bind (·.get? "start")).bind (·.get? "line")).bind Json.nat?

/-- The kind of a node that could not be decoded, as far as it tells. -/
def kindHint (node : Json) : String :=
  -- Anything without a kind is just a node.
  ((node.get? "type").bind Json.text?).getD "node"

/-- The note about a node that could not be decoded. -/
def undecoded (owner : String) (node : Json) (error : DecodeError) : Omission :=
  -- The name of the class, if any, stands in front of the kind.
  .ofPart (lineHint node) (owner ++ kindHint node ++ ": " ++ error.message)

/-- The values that decode and the notes about those that do not, each in order. -/
def decodeEach {α : Type} (owner : String) (decode : Json → Except DecodeError α) :
    List Json → List α × List Omission
  | [] => ([], [])
  | node :: rest =>
    -- What becomes of one node does not depend on the others.
    let later := decodeEach owner decode rest
    match decode node with
    | .ok value => (value :: later.1, later.2)
    | .error error => (later.1, undecoded owner node error :: later.2)

/-- What decodes and what does not in two lists are joined separately. -/
theorem decodeEach_append {α : Type} (owner : String) (decode : Json → Except DecodeError α)
    (first second : List Json) :
    decodeEach owner decode (first ++ second) =
      ((decodeEach owner decode first).1 ++ (decodeEach owner decode second).1,
        (decodeEach owner decode first).2 ++ (decodeEach owner decode second).2) := by
  -- The first node either adds a value or a note in front.
  induction first with
  | nil => rfl
  | cons node rest ih =>
    simp only [List.cons_append, decodeEach, ih]
    cases decode node <;> rfl

namespace Source

/-- The base class as listed. -/
def baseName (source : Source) (base : Node) : Option String :=
  -- A plain name is taken from the tree, anything else from the source.
  if base.kind == "Identifier" then base.nameText.map fun name => String.ofList (collapse name.toList)
  else base.span.bind source.collapsed

/-- The outline of a class whose definition takes up a stretch of source, with the notes on it. -/
def classDef (source : Source) (definition : Class) (span : Span) :
    ClassOutline × List Omission :=
  -- Members that do not decode are noted under the name of the class.
  let name := (definition.id.map Identifier.name).getD anonymous
  let decoded := decodeEach (name ++ ".") Member.decode definition.members
  let members := decoded.1.filterMap source.member
  let doc := source.docOf span
  ({ name := name
     description := doc.description
     tags := doc.tags
     bases := (definition.base.bind source.baseName).toList
     methods := members.filterMap fun
       | .method function => some function
       | .property _ => none
     properties := members.filterMap fun
       | .method _ => none
       | .property name => some name
     line := span.start.line
     text := source.textAt span }, decoded.2)

end Source

/-- The declared name of a function. -/
def Function.name (definition : Function) : Option String :=
  -- Expressions may have none.
  definition.id.map Identifier.name

/-- The declared name of a class. -/
def Class.name (definition : Class) : Option String :=
  -- Expressions may have none.
  definition.id.map Identifier.name

/-- The function bound to a variable. -/
def Declarator.function (declarator : Declarator) : Option Function :=
  -- Other values are not listed.
  match declarator.init with
  | some (.function definition) => some definition
  | _ => none

/-- The name exported for a function or class, when the statement exports it. -/
def exportsOf (isExported : Bool) (name : String) : List String :=
  -- Only exported declarations have one.
  if isExported then [name] else []

namespace Source

/-- The outline of one variable; `whole` is the stretch of its statement when it is the only one. -/
def declarator (source : Source) (isExported : Bool) (whole : Option Span)
    (variable_ : Declarator) : ModuleOutline :=
  -- Only single names count, and only those bound to functions are listed.
  match variable_.target with
  | .identifier id =>
    let listed := variable_.function.map fun definition =>
      { source.function (some id.name) definition true (whole.getD variable_.span) with
        isExported := isExported }
    { functions := listed.toList, exports := exportsOf isExported id.name }
  | _ => {}

/-- The outline of a declaration of a function that takes up a stretch of source. -/
def functionStatement (source : Source) (isExported : Bool) (definition : Function) (span : Span) :
    ModuleOutline :=
  -- An exported function is exported under its own name.
  let listed := source.function definition.name definition false span
  { functions := [{ listed with isExported := isExported }]
    exports := exportsOf isExported listed.name }

/-- The outline of a declaration of a class that takes up a stretch of source. -/
def classStatement (source : Source) (isExported : Bool) (definition : Class) (span : Span) :
    ModuleOutline :=
  -- An exported class is exported under its own name.
  let listed := source.classDef definition span
  { classes := [{ listed.1 with isExported := isExported }]
    exports := exportsOf isExported listed.1.name
    omissions := listed.2 }

/-- The outline of a declaration of variables. -/
def variablesStatement (source : Source) (exported : Option Span)
    (declaration : VariableDeclaration) : ModuleOutline :=
  -- A lone variable owns the whole statement and with it the documentation above.
  let whole :=
    if declaration.declarators.length = 1 then some (exported.getD declaration.span) else none
  (declaration.declarators.map (source.declarator exported.isSome whole)).foldr (· ++ ·) {}

/-- The outline of a default export that takes up a stretch of source. -/
def defaultStatement (source : Source) (declaration : DefaultExport) (span : Span) :
    ModuleOutline :=
  -- What has no name of its own is exported as `default`.
  match declaration with
  | .function definition =>
    let listed := source.function definition.name definition false span
    { functions := [{ listed with isExported := true }]
      exports := [definition.name.getD defaultName] }
  | .arrow definition =>
    let listed := source.function none definition true span
    { functions := [{ listed with isExported := true }], exports := [defaultName] }
  | .classDef definition =>
    let listed := source.classDef definition span
    { classes := [{ listed.1 with isExported := true }]
      exports := [definition.name.getD defaultName]
      omissions := listed.2 }
  | .other => { exports := [defaultName] }

end Source

/-- The text that an imported module is named by. -/
def Import.moduleName (declaration : Import) : String :=
  -- Anything but a text counts as the empty name.
  (declaration.source.value.bind Json.text?).getD ""

/-- The single names of an import in order. -/
def Import.singleNames (declaration : Import) : List String :=
  -- The default name is one of them.
  declaration.names.filterMap fun
    | .single id => some id.name
    | _ => none

/-- The name that an import gives to the whole module. -/
def Import.wholeName (declaration : Import) : Option String :=
  -- Of several such names the last one counts.
  (declaration.names.filterMap fun
    | .wholeModule id => some id.name
    | _ => none).getLast?

/-- An import in one line. -/
def Import.described (declaration : Import) : String :=
  -- A name for the whole module stands alone or behind the single names.
  let source := "'" ++ declaration.moduleName ++ "'"
  let whole := declaration.wholeName.map ("* as " ++ ·)
  match declaration.singleNames, whole with
  | [], none => "import " ++ source
  | [], some name => "import " ++ name ++ " from " ++ source
  | names, whole =>
    "import \x7b" ++ String.intercalate ", " (names ++ whole.toList) ++ "\x7d from " ++ source

namespace Source

/-- The outline of a statement; `exported` is the stretch of the export that holds it. -/
def statement (source : Source) (exported : Option Span) : Statement → ModuleOutline
  | .function definition =>
    source.functionStatement exported.isSome definition (exported.getD definition.span)
  | .variables declaration => source.variablesStatement exported declaration
  | .classDef definition =>
    source.classStatement exported.isSome definition (exported.getD definition.span)
  | .importNames declaration => { imports := [declaration.described] }
  | .exportNamed declaration names span =>
    -- The declaration stands in front of the names.
    let listed := match declaration with
      | some inner => source.statement (some span) inner
      | none => {}
    listed ++ { exports := names.filterMap fun name => name.bind Node.resolvedName }
  | .exportDefault declaration span => source.defaultStatement declaration span
  | .other => {}

/-- The outline of a statement that is still a value. -/
def node (source : Source) (value : Json) : ModuleOutline :=
  -- A statement that does not decode leaves nothing but a note.
  match Statement.decode .outer value with
  | .ok decoded => source.statement none decoded
  | .error error => { omissions := [undecoded "" value error] }

end Source

/-- The outline of a source with a given tree. -/
def outline (text : List Char) (docWindow : Nat) (tree : SyntaxTree) : ModuleOutline :=
  -- Each statement adds its part, in order.
  let source : Source := ⟨sourceLines text, docWindow⟩
  (tree.body.map source.node).foldr (· ++ ·) {}

end SourceOutline.Script
