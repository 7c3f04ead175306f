import SourceOutline.DocComment.Docstring
import SourceOutline.Outline.Record
import SourceOutline.Python.Literal
import SourceOutline.Python.Statement
import SourceOutline.Python.Structure

/-! The outline of a source. -/

namespace SourceOutline.Python

open Text

/-- The text of a node on one line. -/
def Node.collapsed (source : List Char) (node : Node) : String :=
  -- Blanks and line breaks become single spaces.
  String.ofList (collapse (node.text source))

/-- A line without its indentation, as far as that does not exceed a width. -/
def unindent (width : Nat) (line : List Char) : List Char :=
  -- Only spaces and tabs are taken away.
  line.drop (min width (line.takeWhile fun c => c == ' ' || c == '\t').length)

/-- The text of a node, shifted so that it starts at the first column. -/
def dedented (source : List Char) (node : Node) : List Char :=
  -- A node at the first column keeps its text as it is.
  let text := node.text source
  if node.start.column = 0 then text
  else match textLines text with
    | [] => []
    | first :: later => ['\n'].intercalate (first :: later.map (unindent node.start.column))

/-- The type of a parameter. -/
def parameterType (source : List Char) (parameter : Node) : Option String :=
  -- It is written on one line.
  (parameter.child? .type).map (Node.collapsed source)

/-- The names of the positional parameters with their types, up to the first star. -/
def listedParameters (source : List Char) : List Node → List (String × Option String)
  | [] => []
  | parameter :: rest =>
    -- Patterns are listed only with a default value, separators never.
    let listed (target : Node) (type : Option String) :=
      (String.ofList (target.text source), type) :: listedParameters source rest
    match parameter.kind with
    | .identifier => listed parameter none
    | .typedParameter =>
      match parameter.namedChildren with
      | [] => listedParameters source rest
      | target :: _ =>
        if target.kind == .identifier then listed target (parameterType source parameter) else []
    | .defaultParameter | .typedDefaultParameter =>
      match parameter.child? .name with
      | some name => listed name (parameterType source parameter)
      | none => listedParameters source rest
    | .listSplat | .dictionarySplat | .keywordSeparator => []
    | _ => listedParameters source rest

/-- What the body of a definition says about it. -/
def bodyDoc (source : List Char) (definition : Node) : DocComment :=
  -- Without a literal at its start nothing is said.
  (((definition.child? .body).bind (docstring source)).map DocComment.ofDocstring).getD {}

/-- The outline of a function, whose text is that of `span`; a function has a name. -/
def functionOutline (source : List Char) (definition span : Node) : Option FunctionOutline :=
  (definition.child? .name).map fun name =>
    let doc := bodyDoc source definition
    let parameters := ((definition.child? .parameters).map Node.namedChildren).getD []
    let start : FunctionOutline :=
      { name := String.ofList (name.text source)
        line := definition.line
        isAsync := definition.children.any fun child => child.kind == .asyncKeyword
        returns := (definition.child? .returns).map (Node.collapsed source)
        description := doc.description
        tags := doc.tags
        text := String.ofList (dedented source span) }
    (listedParameters source parameters).foldl
      (fun outline listed => outline.addParameter listed.1 listed.2) start

/-- The classes that a class is derived from. -/
def baseNames (source : List Char) (definition : Node) : List String :=
  -- Arguments given by keyword are no classes.
  let given := ((definition.child? .bases).map Node.namedChildren).getD []
  (given.filter fun base => base.kind != .keywordArgument && !base.isComment).map
    (Node.collapsed source)

/-- The definition that a statement consists of, below its decorators. -/
def definitionOf (statement : Node) : Option Node :=
  -- Other statements are no definitions.
  match statement.kind with
  | .functionDefinition | .classDefinition => some statement
  | .decoratedDefinition => statement.child? .definition
  | _ => none

/-- The outline of the method that a statement defines, or a note about it. -/
def methodOutline (source : List Char) (statement : Node) :
    List FunctionOutline × List Omission :=
  -- Anything but the definition of a function defines no method.
  match definitionOf statement with
  | some definition =>
    if definition.kind == .functionDefinition then
      match functionOutline source definition statement with
      | some method => ([method], [])
      | none => ([], [.ofPart (some definition.line) "method definition without a name"])
    else ([], [])
  | none => ([], [])

/-- The outline of a class, whose text is that of `span`, and the notes on it. -/
def classOutline (source : List Char) (definition span : Node) :
    Option (ClassOutline × List Omission) :=
  (definition.child? .name).map fun name =>
    let doc := bodyDoc source definition
    let members := ((definition.child? .body).map Node.namedChildren).getD []
    let methods := members.map (methodOutline source)
    ({ name := String.ofList (name.text source)
       line := definition.line
       bases := baseNames source definition
       description := doc.description
       tags := doc.tags
       methods := methods.flatMap Prod.fst
       text := String.ofList (dedented source span) }, methods.flatMap Prod.snd)

/-- The outline of a definition at the top, whose text is that of `span`. -/
def definitionOutline (source : List Char) (definition span : Node) : ModuleOutline :=
  -- A definition without a name leaves only a note.
  match definition.kind with
  | .functionDefinition =>
    match functionOutline source definition span with
    | some function => { functions := [function] }
    | none =>
      { omissions := [.ofPart (some definition.line) "function definition without a name"] }
  | .classDefinition =>
    match classOutline source definition span with
    | some (owner, notes) => { classes := [owner], omissions := notes }
    | none => { omissions := [.ofPart (some definition.line) "class definition without a name"] }
  | _ => {}

/-- The outline of a statement at the top. -/
def statementOutline (source : List Char) (statement : Node) : ModuleOutline :=
  -- Only definitions and imports are listed.
  match statement.kind with
  | .functionDefinition | .classDefinition => definitionOutline source statement statement
  | .decoratedDefinition =>
    match statement.child? .definition with
    | some definition => definitionOutline source definition statement
    | none =>
      { omissions := [.ofPart (some statement.line) "decorated definition without a definition"] }
  | .importStatement => { imports := [statement.collapsed source] }
  | _ => {}

/-- The outline of a source with a given tree. -/
def treeOutline (source : List Char) (tree : Node) : ModuleOutline :=
  -- Each statement adds its part, in order.
  (tree.namedChildren.map (statementOutline source)).foldr (· ++ ·) {}

/-- The outline of a source, or the failure of the whole source. -/
def outline (source : List Char) : Except Failure ModuleOutline :=
  -- A source that is not a program has no outline at all.
  match parse source with
  | none => .error (.syntaxFailure 1 1 "invalid syntax")
  | some tree => do
    checkStructure source tree
    return treeOutline source tree

end SourceOutline.Python
