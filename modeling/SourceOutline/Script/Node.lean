import SourceOutline.Json.Value

/-! The parts of a syntax tree that an outline is made from, as the engine describes them. -/

namespace SourceOutline.Script

/-- A place in a source. -/
structure Position where
  /-- The line, counted from one. -/
  line : Nat
  /-- The column, counted from zero in units of sixteen bits. -/
  column : Nat
  deriving DecidableEq, Repr

/-- A stretch of a source. -/
structure Span where
  /-- Where it starts. -/
  start : Position
  /-- Where it ends. -/
  stop : Position
  deriving DecidableEq, Repr

/-- A node of which only a name, a literal or a stretch of source matters. -/
inductive Node where
  /-- A node of a kind, with what else is known of it. -/
  | mk (kind : String) (name : Option Json) (id : Option Node) (value : Option Json)
    (raw : Option String) (extra : Option (Option String)) (span : Option Span)

namespace Node

/-- The kind of a node. -/
def kind : Node → String
  | mk kind .. => kind

/-- The name of a node. -/
def name : Node → Option Json
  | mk _ name .. => name

/-- The node that names a node. -/
def id : Node → Option Node
  | mk _ _ id .. => id

/-- The value of a literal. -/
def value : Node → Option Json
  | mk _ _ _ value .. => value

/-- A literal as it is spelled. -/
def raw : Node → Option String
  | mk _ _ _ _ raw _ _ => raw

/-- A literal as it is spelled, in the record of extras. -/
def extra : Node → Option (Option String)
  | mk _ _ _ _ _ extra _ => extra

/-- The source of a node. -/
def span : Node → Option Span
  | mk _ _ _ _ _ _ span => span

end Node

/-- The type that is written behind a name or a parameter list. -/
structure TypeNote where
  /-- The source of the type together with the colon before it. -/
  span : Option Span
  /-- The type itself. -/
  inner : Option Node

/-- A name that is bound, and its type. -/
structure Identifier where
  /-- The name. -/
  name : String
  /-- The type written behind it. -/
  type : Option TypeNote

/-- What a parameter or a variable binds. -/
inductive Pattern where
  /-- A single name. -/
  | identifier (id : Identifier)
  /-- A pattern with a default value. -/
  | withDefault (left : Pattern) (right : Node)
  /-- A pattern that takes all remaining values. -/
  | rest (argument : Pattern) (type : Option TypeNote)
  /-- A parameter that is a property too. -/
  | property (parameter : Pattern)
  /-- A pattern of another form, which takes values apart. -/
  | other

/-- A function in any of its forms. -/
structure Function where
  /-- The declared name. -/
  id : Option Identifier
  /-- The parameters in order. -/
  parameters : List Pattern
  /-- The function is asynchronous. -/
  isAsync : Bool
  /-- The type of the result. -/
  returns : Option TypeNote
  /-- The source of the function. -/
  span : Span

/-- A class. -/
structure Class where
  /-- The declared name. -/
  id : Option Identifier
  /-- The class it is derived from. -/
  base : Option Node
  /-- The members, which are decoded one by one. -/
  members : List Json
  /-- The source of the class. -/
  span : Span

/-- A member of a class. -/
inductive Member where
  /-- A method whose function is a value of its own. -/
  | methodValue (key : Node) (value : Function) (returns : Option TypeNote) (span : Span)
  /-- A method that is itself the function. -/
  | method (key : Node) (parameters : List Pattern) (isAsync : Bool) (returns : Option TypeNote)
    (span : Span)
  /-- A property. -/
  | property (key : Node)
  /-- A member of another kind. -/
  | other

/-- The initial value of a variable. -/
inductive Initializer where
  /-- A function that is bound to the variable. -/
  | function (function : Function)
  /-- Any other value. -/
  | other

/-- One variable of a declaration. -/
structure Declarator where
  /-- What is bound. -/
  target : Pattern
  /-- Its initial value. -/
  init : Option Initializer
  /-- The source of this variable alone. -/
  span : Span

/-- A declaration of variables. -/
structure VariableDeclaration where
  /-- The variables in order. -/
  declarators : List Declarator
  /-- The source of the whole declaration. -/
  span : Span

/-- A name that an import binds. -/
inductive ImportName where
  /-- A single name, the default one or another. -/
  | single (name : Identifier)
  /-- A name for the whole module. -/
  | wholeModule (name : Identifier)
  /-- A form of another kind. -/
  | other

/-- An import. -/
structure Import where
  /-- The literal that names the module. -/
  source : Node
  /-- The names in order. -/
  names : List ImportName

/-- What is exported without a name of its own. -/
inductive DefaultExport where
  /-- A function that is declared or is an expression with its own name. -/
  | function (function : Function)
  /-- A class. -/
  | classDef (definition : Class)
  /-- An arrow function. -/
  | arrow (function : Function)
  /-- Any other value. -/
  | other

/-- A statement at the top of a program. -/
inductive Statement where
  /-- A function. -/
  | function (function : Function)
  /-- Variables. -/
  | variables (declaration : VariableDeclaration)
  /-- A class. -/
  | classDef (definition : Class)
  /-- An import. -/
  | importNames (declaration : Import)
  /-- An export of a declaration and of names. -/
  | exportNamed (declaration : Option Statement) (names : List (Option Node)) (span : Span)
  /-- An export under the name `default`. -/
  | exportDefault (declaration : DefaultExport) (span : Span)
  /-- A statement of another kind. -/
  | other

/-- A program as the engine describes it, whose statements are decoded one by one. -/
structure SyntaxTree where
  /-- The statements at the top. -/
  body : List Json

end SourceOutline.Script
