import SourceOutline.Json.Decode
import SourceOutline.Script.Node

/-! Syntax trees decoded from values. -/

namespace SourceOutline.Script

variable {whole : Json}

/-- A place in a source, whose column may be left out. -/
def Position.decode (place : Place) : Decoder whole Position := fun value small =>
  -- A column left out is the first one.
  (mk <$> .required "line" .count <*> .defaulted "column" 0 .count : Shape whole Position).decode
    "struct Position" place value (Json.sizeOf_le small)

/-- A stretch of a source. -/
def Span.decode (place : Place) : Decoder whole Span := fun value small =>
  -- Both ends must be there.
  (mk <$> .required "start" (Position.decode place) <*> .required "end" (Position.decode place) :
    Shape whole Span).decode "struct SourceLocation" place value (Json.sizeOf_le small)

/-- The record of extras of a literal. -/
def decodeExtra (place : Place) : Decoder whole (Option String) := fun value small =>
  -- Only the spelling of the literal matters.
  (Shape.optional "raw" .string).decode "struct LiteralExtra" place value (Json.sizeOf_le small)

/-- A loosely typed node. -/
def Node.decode (place : Place) (value : Json) : Except DecodeError Node :=
  -- The naming node is smaller, so its decoding ends.
  (mk <$> .required "type" .string <*> .optional "name" .any
    <*> .optional "id" (fun child _small => Node.decode place child)
    <*> .optional "value" .any <*> .optional "raw" .string
    <*> .optional "extra" (decodeExtra place) <*> .optional "loc" (Span.decode place) :
    Shape value Node).decode "struct AnyNode" place value (Json.sizeOf_le_self value)
termination_by sizeOf value
decreasing_by exact _small

/-- A loosely typed node inside another value. -/
def Node.part (place : Place) : Decoder whole Node := fun value _ => Node.decode place value

/-- A type behind a name or a parameter list. -/
def TypeNote.decode (place : Place) : Decoder whole TypeNote := fun value small =>
  -- Both fields may be missing.
  (mk <$> .optional "loc" (Span.decode place) <*> .optional "typeAnnotation" (Node.part place) :
    Shape whole TypeNote).decode "struct TypeAnnotation" place value (Json.sizeOf_le small)

/-- The fields of a name that is bound. -/
def Identifier.shape (place : Place) : Shape whole Identifier :=
  -- The type may be missing.
  mk <$> .required "name" .string <*> .optional "typeAnnotation" (TypeNote.decode place)

/-- A name that is bound. -/
def Identifier.decode (place : Place) : Decoder whole Identifier := fun value small =>
  -- Only the name must be there.
  (Identifier.shape place).decode "struct Identifier" place value (Json.sizeOf_le small)

/-- The kinds of patterns in the order in which numbers refer to them. -/
def Pattern.variants : List String :=
  ["Identifier", "AssignmentPattern", "RestElement", "TSParameterProperty", "Other"]

/-- What a parameter or a variable binds; it stands only inside tagged values. -/
def Pattern.decode (value : Json) : Except DecodeError Pattern := do
  -- The patterns inside a pattern are smaller.
  let tagged ← Tagged.takeApart "Pattern" Pattern.variants .inner value
  match tagged.variant with
  | some "Identifier" =>
    let id ← (Identifier.shape .inner : Shape value Identifier).decode
      "struct Identifier" .inner tagged.content tagged.fits
    return .identifier id
  | some "AssignmentPattern" =>
    (withDefault <$> .required "left" (fun child _small => Pattern.decode child)
      <*> .required "right" (Node.part .inner) : Shape value Pattern).decode
      "struct variant Pattern::AssignmentPattern" .inner tagged.content tagged.fits
  | some "RestElement" =>
    (rest <$> .required "argument" (fun child _small => Pattern.decode child)
      <*> .optional "typeAnnotation" (TypeNote.decode .inner) : Shape value Pattern).decode
      "struct variant Pattern::RestElement" .inner tagged.content tagged.fits
  | some "TSParameterProperty" =>
    (property <$> .required "parameter" (fun child _small => Pattern.decode child) :
      Shape value Pattern).decode
      "struct variant Pattern::TSParameterProperty" .inner tagged.content tagged.fits
  | _ => tagged.catchAll .other
termination_by sizeOf value
decreasing_by all_goals exact _small

/-- A pattern inside another value. -/
def Pattern.part : Decoder whole Pattern := fun value _ => Pattern.decode value

/-- The fields of a function. -/
def Function.shape : Shape whole Function :=
  -- Functions stand only inside tagged values.
  mk <$> .optional "id" (Identifier.decode .inner)
    <*> .defaulted "params" [] (.list Pattern.part)
    <*> .defaulted "async" false .bool
    <*> .optional "returnType" (TypeNote.decode .inner)
    <*> .required "loc" (Span.decode .inner)

/-- A function. -/
def Function.decode : Decoder whole Function := fun value small =>
  -- Its own tag, if any, is not looked at.
  Function.shape.decode "struct Function" .inner value (Json.sizeOf_le small)

/-- A function taken from a tagged value. -/
def Tagged.function (tagged : Tagged whole) : Except DecodeError Function :=
  -- The fields beside the tag are those of the function.
  Function.shape.decode "struct Function" .inner tagged.content tagged.fits

/-- The body of a class, whose members stay as they are. -/
def decodeMembers : Decoder whole (List Json) := fun value small =>
  -- Members are decoded one by one, so that one that does not fit spoils no other.
  (Shape.defaulted "body" [] (.list .any)).decode "struct ClassBody" .inner value
    (Json.sizeOf_le small)

/-- A class taken from a tagged value. -/
def Tagged.class (tagged : Tagged whole) : Except DecodeError Class :=
  -- Classes stand only inside tagged values.
  (Class.mk <$> .optional "id" (Identifier.decode .inner)
    <*> .optional "superClass" (Node.part .inner)
    <*> .required "body" decodeMembers
    <*> .required "loc" (Span.decode .inner) : Shape whole Class).decode
    "struct Class" .inner tagged.content tagged.fits

/-- The kinds of initial values in the order in which numbers refer to them. -/
def Initializer.variants : List String :=
  ["ArrowFunctionExpression", "FunctionExpression", "Other"]

/-- The initial value of a variable. -/
def Initializer.decode : Decoder whole Initializer := fun value _ => do
  -- Both forms of function expressions have the same fields.
  let tagged ← Tagged.takeApart "Expression" Initializer.variants .inner value
  match tagged.variant with
  | some "ArrowFunctionExpression" | some "FunctionExpression" =>
    return .function (← Tagged.function tagged)
  | _ => tagged.catchAll .other

/-- One variable of a declaration. -/
def Declarator.decode : Decoder whole Declarator := fun value small =>
  -- The initial value may be missing.
  (mk <$> .required "id" Pattern.part
    <*> .optional "init" Initializer.decode
    <*> .required "loc" (Span.decode .inner) : Shape whole Declarator).decode
    "struct VariableDeclarator" .inner value (Json.sizeOf_le small)

/-- The kinds of imported names in the order in which numbers refer to them. -/
def ImportName.variants : List String :=
  ["ImportDefaultSpecifier", "ImportSpecifier", "ImportNamespaceSpecifier", "Other"]

/-- The name bound by a form of import. -/
def ImportName.bound (tagged : Tagged whole) (variant : String) : Except DecodeError Identifier :=
  -- All forms have the same single field.
  (Shape.required "local" (Identifier.decode .inner)).decode
    ("struct variant ImportSpecifier::" ++ variant) .inner tagged.content tagged.fits

/-- A name that an import binds. -/
def ImportName.decode : Decoder whole ImportName := fun value _ => do
  -- The default name and other single names are treated alike.
  let tagged ← Tagged.takeApart "ImportSpecifier" ImportName.variants .inner value
  match tagged.variant with
  | some "ImportDefaultSpecifier" => return .single (← bound tagged "ImportDefaultSpecifier")
  | some "ImportSpecifier" => return .single (← bound tagged "ImportSpecifier")
  | some "ImportNamespaceSpecifier" =>
    return .wholeModule (← bound tagged "ImportNamespaceSpecifier")
  | _ => tagged.catchAll .other

/-- A name in an export. -/
def decodeExportName : Decoder whole (Option Node) := fun value small =>
  -- The name may be missing.
  (Shape.optional "exported" (Node.part .inner)).decode "struct ExportSpecifier" .inner value
    (Json.sizeOf_le small)

/-- The kinds of default exports in the order in which numbers refer to them. -/
def DefaultExport.variants : List String :=
  ["FunctionDeclaration", "ClassDeclaration", "ArrowFunctionExpression", "FunctionExpression",
    "Other"]

/-- What is exported under the name `default`. -/
def DefaultExport.decode : Decoder whole DefaultExport := fun value _ => do
  -- Arrow functions are told apart because they never have a name.
  let tagged ← Tagged.takeApart "DefaultExport" DefaultExport.variants .inner value
  match tagged.variant with
  | some "FunctionDeclaration" | some "FunctionExpression" =>
    return .function (← Tagged.function tagged)
  | some "ClassDeclaration" => return .classDef (← Tagged.class tagged)
  | some "ArrowFunctionExpression" => return .arrow (← Tagged.function tagged)
  | _ => tagged.catchAll .other

/-- The kinds of statements in the order in which numbers refer to them. -/
def Statement.variants : List String :=
  ["FunctionDeclaration", "VariableDeclaration", "ClassDeclaration", "ImportDeclaration",
    "ExportNamedDeclaration", "ExportDefaultDeclaration", "Unsupported"]

/-- Variables taken from a tagged value. -/
def Tagged.variables (tagged : Tagged whole) : Except DecodeError VariableDeclaration :=
  -- A declaration may be without variables.
  (VariableDeclaration.mk <$> .defaulted "declarations" [] (.list Declarator.decode)
    <*> .required "loc" (Span.decode .inner) : Shape whole VariableDeclaration).decode
    "struct VariableDeclaration" .inner tagged.content tagged.fits

/-- An import taken from a tagged value. -/
def Tagged.imports (tagged : Tagged whole) : Except DecodeError Import :=
  -- An import may bind no name.
  (Import.mk <$> .required "source" (Node.part .inner)
    <*> .defaulted "specifiers" [] (.list ImportName.decode) : Shape whole Import).decode
    "struct ImportDeclaration" .inner tagged.content tagged.fits

/-- A statement at the top of a program, or the declaration inside an export. -/
def Statement.decode (place : Place) (value : Json) : Except DecodeError Statement := do
  -- The declaration inside an export is smaller than the export.
  let tagged ← Tagged.takeApart "Statement" Statement.variants place value
  match tagged.variant with
  | some "FunctionDeclaration" => return .function (← Tagged.function tagged)
  | some "VariableDeclaration" => return .variables (← Tagged.variables tagged)
  | some "ClassDeclaration" => return .classDef (← Tagged.class tagged)
  | some "ImportDeclaration" => return .importNames (← Tagged.imports tagged)
  | some "ExportNamedDeclaration" =>
    (exportNamed <$> .optional "declaration" (fun child _small => Statement.decode .inner child)
      <*> .defaulted "specifiers" [] (.list decodeExportName)
      <*> .required "loc" (Span.decode .inner) : Shape value Statement).decode
      "struct ExportNamedDeclaration" .inner tagged.content tagged.fits
  | some "ExportDefaultDeclaration" =>
    (exportDefault <$> .required "declaration" DefaultExport.decode
      <*> .required "loc" (Span.decode .inner) : Shape value Statement).decode
      "struct ExportDefaultDeclaration" .inner tagged.content tagged.fits
  | _ => tagged.catchAll .other
termination_by sizeOf value
decreasing_by exact _small

/-- The kinds of class members in the order in which numbers refer to them. -/
def Member.variants : List String :=
  ["MethodDefinition", "ClassMethod", "PropertyDefinition", "ClassProperty",
    "ClassPrivateProperty", "Other"]

/-- The key of a property of some kind. -/
def Member.propertyKey (tagged : Tagged whole) (variant : String) : Except DecodeError Node :=
  -- All kinds of properties have the same single field.
  (Shape.required "key" (Node.part .inner)).decode ("struct variant ClassMember::" ++ variant)
    .inner tagged.content tagged.fits

/-- A member of a class. -/
def Member.decode (value : Json) : Except DecodeError Member := do
  -- Members are decoded on their own, whatever holds the class.
  let tagged ← Tagged.takeApart "ClassMember" Member.variants .outer value
  match tagged.variant with
  | some "MethodDefinition" =>
    (methodValue <$> .required "key" (Node.part .inner)
      <*> .required "value" Function.decode
      <*> .optional "returnType" (TypeNote.decode .inner)
      <*> .required "loc" (Span.decode .inner) : Shape value Member).decode
      "struct variant ClassMember::MethodDefinition" .inner tagged.content tagged.fits
  | some "ClassMethod" =>
    (method <$> .required "key" (Node.part .inner)
      <*> .defaulted "params" [] (.list Pattern.part)
      <*> .defaulted "async" false .bool
      <*> .optional "returnType" (TypeNote.decode .inner)
      <*> .required "loc" (Span.decode .inner) : Shape value Member).decode
      "struct variant ClassMember::ClassMethod" .inner tagged.content tagged.fits
  | some "PropertyDefinition" => return .property (← propertyKey tagged "PropertyDefinition")
  | some "ClassProperty" => return .property (← propertyKey tagged "ClassProperty")
  | some "ClassPrivateProperty" => return .property (← propertyKey tagged "ClassPrivateProperty")
  | _ => tagged.catchAll .other

/-- A program decoded from a value. -/
def SyntaxTree.decode (value : Json) : Except DecodeError SyntaxTree :=
  -- A program without statements need not say so.
  (mk <$> .defaulted "body" [] (.list .any) : Shape value SyntaxTree).decode
    "struct SyntaxTree" .outer value (Json.sizeOf_le_self value)

end SourceOutline.Script
