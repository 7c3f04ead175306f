import SourceOutline.Failure
import SourceOutline.Python.Tree
import SourceOutline.Text.Blank
import SourceOutline.Text.Lines

/-! The rules of layout and of parameters that a syntax tree must keep. -/

namespace SourceOutline.Python

open Text

/-- The lines of a source by row. -/
abbrev Rows : Type := Array (List Char)

/-- The lines of a source by row. -/
def rowsOf (source : List Char) : Rows := (splitLines source).toArray

/-- The line in a row, empty beyond the end of the source. -/
def rowText (rows : Rows) (row : Nat) : List Char :=
  -- A tree of another source might name such a row.
  rows[row]?.getD []

/-- A blank that counts for the indentation of a line. -/
def isIndent (c : Char) : Bool :=
  -- Each of them takes one byte.
  c == ' ' || c == '\t' || c == '\x0c'

/-- How many bytes the line in a row is indented by. -/
def rowIndent (rows : Rows) (row : Nat) : Nat :=
  -- Tabs are not expanded.
  ((rowText rows row).takeWhile isIndent).length

/-- A failure at the place where a node starts. -/
def failureAt (node : Node) (message : String) : Failure :=
  -- Lines and columns of messages count from one.
  .syntaxFailure (node.start.row + 1) (node.start.column + 1) message

/-- The statement opens its line. -/
def isLeading (rows : Rows) (statement : Node) : Bool :=
  -- Statements behind a semicolon do not.
  rowIndent rows statement.start.row == statement.start.column

/-- The statements of a block or of a module. -/
def suiteStatements (suite : Node) : List Node :=
  -- Comments are no statements.
  suite.namedChildren.filter fun child => !child.isComment

/-- The statements that open their lines. -/
def leadingStatements (rows : Rows) (suite : Node) : List Node :=
  -- Their order is kept.
  (suiteStatements suite).filter (isLeading rows)

/-- The line holds neither nothing nor a comment alone. -/
def holdsCode (line : List Char) : Bool :=
  -- Blanks around the text do not count.
  let text := trim line
  !text.isEmpty && text.head? != some '#'

/-- The nearest row above that holds code. -/
def codeRowAbove (rows : Rows) : Nat → Option Nat
  | 0 => none
  | row + 1 => if holdsCode (rowText rows row) then some row else codeRowAbove rows row

/-- The failure of a statement that is not indented like its block. -/
def indentFailure (rows : Rows) (statement : Node) : Failure :=
  -- A line that falls back from the one above dedents, any other indents.
  match codeRowAbove rows statement.start.row with
  | some row =>
    if statement.start.column < rowIndent rows row then
      failureAt statement "unindent does not match any outer indentation level"
    else failureAt statement "unexpected indent"
  | none => failureAt statement "unexpected indent"

/-- All statements start at a column, or else the failure of the first that does not. -/
def checkColumns (rows : Rows) (column : Nat) (statements : List Node) : Except Failure Unit :=
  -- The statements are those that open their lines.
  match statements.find? fun statement => statement.start.column != column with
  | some statement => .error (indentFailure rows statement)
  | none => .ok ()

/-- The statements that open their lines share a column, which for a module is the first. -/
def checkSuite (rows : Rows) (suite : Node) (expected : Option Nat) : Except Failure Unit :=
  -- Without a given column the first statement sets it.
  let statements := leadingStatements rows suite
  match expected <|> (statements.head?).map fun statement => statement.start.column with
  | some column => checkColumns rows column statements
  | none => .ok ()

/-- The message about a block that is not indented further than its header. -/
def blockMessage : String := "expected an indented block"

/-- A block is on the row of its header or indented further than it. -/
def checkBlock (rows : Rows) (headerRow : Nat) (block : Node) : Except Failure Unit :=
  -- A block without statements has no line that could be indented.
  match suiteStatements block with
  | [] => .error (failureAt block blockMessage)
  | first :: _ =>
    if first.start.row = headerRow then .ok ()
    else
      let shallow := (leadingStatements rows block).find? fun statement =>
        statement.start.column ≤ rowIndent rows headerRow
      match shallow with
      | some statement => .error (failureAt statement blockMessage)
      | none => checkSuite rows block none

/-- What a child of a parameter list is for the order of defaults. -/
inductive ParameterClass where
  /-- A parameter without a default value. -/
  | bare
  /-- A parameter with a default value. -/
  | defaulted
  /-- The end of the positional parameters. -/
  | final
  /-- Neither a parameter nor an end. -/
  | neutral
  deriving DecidableEq, Repr

/-- The first part of a typed parameter is a name and not one behind stars. -/
def isPlainTyped (parameter : Node) : Bool :=
  -- A parameter without parts has no name.
  (parameter.namedChildren.head?).any fun target => target.kind == .identifier

/-- What a child of a parameter list is for the order of defaults. -/
def parameterClass (parameter : Node) : ParameterClass :=
  -- Patterns and slashes neither need nor forbid defaults.
  match parameter.kind with
  | .defaultParameter | .typedDefaultParameter => .defaulted
  | .identifier => .bare
  | .typedParameter => if isPlainTyped parameter then .bare else .final
  | .listSplat | .dictionarySplat | .keywordSeparator => .final
  | _ => .neutral

/-- The first parameter without default behind one with a default, before the positional ones end. -/
def misplaced (seenDefault : Bool) : List Node → Option Node
  | [] => none
  | parameter :: rest =>
    -- Parameters given by keyword only may omit defaults.
    match parameterClass parameter with
    | .final => none
    | .bare => if seenDefault then some parameter else misplaced seenDefault rest
    | .defaulted => misplaced true rest
    | .neutral => misplaced seenDefault rest

/-- No parameter without default follows one with a default. -/
def checkDefaults (parameters : Node) : Except Failure Unit :=
  -- The parameter without default is to blame.
  match misplaced false parameters.namedChildren with
  | some parameter =>
    .error (failureAt parameter "parameter without a default follows parameter with a default")
  | none => .ok ()

/-- A node keeps the rules that concern it, given the row of its parent if it has one. -/
def checkNode (rows : Rows) (headerRow : Option Nat) (node : Node) : Except Failure Unit :=
  -- Statements of the old form are refused wherever they stand, and blocks only below a header.
  match node.kind, headerRow with
  | .printStatement, _ => .error (failureAt node "Missing parentheses in call to 'print'")
  | .execStatement, _ => .error (failureAt node "Missing parentheses in call to 'exec'")
  | .block, some row => checkBlock rows row node
  | .parameters, _ | .lambdaParameters, _ => checkDefaults node
  | _, _ => .ok ()

mutual

/-- A node and everything in it keep the rules; a node is looked at before its children. -/
def checkTree (rows : Rows) (headerRow : Option Nat) : Node → Except Failure Unit
  | .mk kind role start stop children => do
    checkNode rows headerRow (.mk kind role start stop children)
    checkTrees rows start.row children

/-- The named ones among the children of a node keep the rules, from the first to the last. -/
def checkTrees (rows : Rows) (headerRow : Nat) : List Node → Except Failure Unit
  | [] => .ok ()
  | node :: rest =>
    -- The first failure is the one that is reported; keywords have no rules to keep.
    if node.isNamed then do
      checkTree rows (some headerRow) node
      checkTrees rows headerRow rest
    else checkTrees rows headerRow rest

end

/-- A syntax tree of a source keeps all rules, or else the failure that is reported. -/
def checkStructure (source : List Char) (tree : Node) : Except Failure Unit := do
  -- The statements of the module come first, then all nodes from the top.
  let rows := rowsOf source
  checkSuite rows tree (some 0)
  checkTree rows none tree

end SourceOutline.Python
