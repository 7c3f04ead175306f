import SourceOutline.Python.Token

/-! The syntax tree of a source, as far as its structure and its outline need it. -/

namespace SourceOutline.Python

/-- What a node of the tree is. -/
inductive Kind where
  /-- The whole source. -/
  | module
  /-- The definition of a function. -/
  | functionDefinition
  /-- The definition of a class. -/
  | classDefinition
  /-- A definition with the decorators above it. -/
  | decoratedDefinition
  /-- An import in any of its forms. -/
  | importStatement
  /-- A print statement of the old form. -/
  | printStatement
  /-- An exec statement of the old form. -/
  | execStatement
  /-- A statement that consists of expressions. -/
  | expressionStatement
  /-- Any other statement. -/
  | statement
  /-- A part of a statement with a body of its own. -/
  | clause
  /-- The body of a statement or of a clause. -/
  | block
  /-- The parameters of a function. -/
  | parameters
  /-- The parameters of an anonymous function. -/
  | lambdaParameters
  /-- A name. -/
  | identifier
  /-- A parameter with a type. -/
  | typedParameter
  /-- A parameter with a default value. -/
  | defaultParameter
  /-- A parameter with a type and a default value. -/
  | typedDefaultParameter
  /-- A parameter that takes all remaining positional arguments. -/
  | listSplat
  /-- A parameter that takes all remaining keyword arguments. -/
  | dictionarySplat
  /-- The star before the parameters that are given by keyword only. -/
  | keywordSeparator
  /-- The slash behind the parameters that are given by position only. -/
  | positionalSeparator
  /-- A parameter that takes a value apart. -/
  | tuplePattern
  /-- The arguments of a class. -/
  | arguments
  /-- An argument given by keyword. -/
  | keywordArgument
  /-- A string literal. -/
  | string
  /-- String literals side by side. -/
  | concatenatedString
  /-- The opening quotes of a string literal. -/
  | stringStart
  /-- A replacement field of a string literal. -/
  | interpolation
  /-- The closing quotes of a string literal. -/
  | stringEnd
  /-- Any other expression. -/
  | expression
  /-- The keyword of asynchronous functions. -/
  | asyncKeyword
  /-- A comment. -/
  | comment
  /-- A backslash that joins two lines. -/
  | lineJoin
  deriving DecidableEq, Repr

/-- What a node is for its parent. -/
inductive Role where
  /-- One part among others. -/
  | part
  /-- The name of a definition or of a parameter. -/
  | name
  /-- The parameters of a function. -/
  | parameters
  /-- The type of a parameter. -/
  | type
  /-- The type of the result of a function. -/
  | returns
  /-- The arguments of a class. -/
  | bases
  /-- The body of a definition. -/
  | body
  /-- The definition below decorators. -/
  | definition
  deriving DecidableEq, Repr

/-- A node of a tree. -/
inductive Node where
  /-- A node of a kind in a role between two places, with its children in order. -/
  | mk (kind : Kind) (role : Role) (start stop : Mark) (children : List Node)
  deriving Repr

namespace Node

instance : Inhabited Node := ⟨.mk .module .part {} {} []⟩

/-- What the node is. -/
def kind : Node → Kind
  | mk kind .. => kind

/-- What the node is for its parent. -/
def role : Node → Role
  | mk _ role .. => role

/-- Where the node starts. -/
def start : Node → Mark
  | mk _ _ start .. => start

/-- Where the node ends. -/
def stop : Node → Mark
  | mk _ _ _ stop _ => stop

/-- The parts of the node. -/
def children : Node → List Node
  | mk _ _ _ _ children => children

/-- The node is more than a keyword or a separator. -/
def isNamed (node : Node) : Bool :=
  -- Only one kind of keyword is kept in the tree at all.
  node.kind != .asyncKeyword

/-- The node is a comment. -/
def isComment (node : Node) : Bool := node.kind == .comment

/-- The children that are more than keywords. -/
def namedChildren (node : Node) : List Node :=
  -- Their order is kept.
  node.children.filter isNamed

/-- The first child in a role. -/
def child? (node : Node) (role : Role) : Option Node :=
  -- Hardly any role is given twice.
  node.children.find? fun child => child.role == role

/-- The same node in another role. -/
def inRole (role : Role) : Node → Node
  | mk kind _ start stop children => mk kind role start stop children

/-- The text of a node. -/
def text (source : List Char) (node : Node) : List Char :=
  -- It lies between the places where the node starts and ends.
  textBetween source node.start node.stop

/-- The line where a node starts, counted from one. -/
def line (node : Node) : Nat := node.start.row + 1

end Node

end SourceOutline.Python
