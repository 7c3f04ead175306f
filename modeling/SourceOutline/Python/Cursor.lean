import SourceOutline.Python.Tree

/-! Parsers over tokens: what comes next, what is taken, and the nodes built from it. -/

namespace SourceOutline.Python

/-- How far the tokens have been parsed. -/
structure Cursor where
  /-- The tokens left. -/
  tokens : List Token
  /-- Where the last token taken ends. -/
  last : Mark := {}
  /-- The comments and joins passed so far, the last one first. -/
  trivia : List Token := []
  /-- A number of repetitions that no loop over the tokens exceeds. -/
  limit : Nat

/-- A parser, which fails or moves the cursor. -/
abbrev Parse (α : Type) : Type := StateT Cursor Option α

/-- The comments and joins in front of tokens are moved behind those passed before. -/
def passTrivia (passed : List Token) : List Token → List Token × List Token
  | [] => (passed, [])
  | token :: rest =>
    -- The first token of another kind stays in front.
    if token.symbol.isTrivia then passTrivia (token :: passed) rest else (passed, token :: rest)

/-- The cursor behind the comments and joins at its place. -/
def Cursor.settle (cursor : Cursor) : Cursor :=
  -- No token is taken.
  let moved := passTrivia cursor.trivia cursor.tokens
  { cursor with trivia := moved.1, tokens := moved.2 }

namespace Parse

variable {α : Type}

/-- The source is not a program. -/
def fail : Parse α := fun _ => none

/-- The symbol that comes next. -/
def next : Parse Symbol := fun cursor =>
  -- Comments and joins are passed.
  let settled := cursor.settle
  match settled.tokens with
  | [] => some (.finish, settled)
  | token :: _ => some (token.symbol, settled)

/-- The next token is taken. -/
def take : Parse Token := fun cursor =>
  -- Comments and joins before it are passed.
  let settled := cursor.settle
  match settled.tokens with
  | [] => none
  | token :: rest => some (token, { settled with tokens := rest, last := token.stop })

/-- The symbol that comes after the next one. -/
def afterNext : Parse Symbol := fun cursor =>
  -- The cursor passes only what lies before the next token.
  let settled := cursor.settle
  match (passTrivia [] (settled.tokens.drop 1)).2 with
  | [] => some (.finish, settled)
  | token :: _ => some (token.symbol, settled)

/-- The place where the next token starts. -/
def here : Parse Mark := fun cursor =>
  -- Comments and joins are passed.
  let settled := cursor.settle
  match settled.tokens with
  | [] => some (settled.last, settled)
  | token :: _ => some (token.start, settled)

/-- The place where the last token ends. -/
def behind : Parse Mark := fun cursor => some (cursor.last, cursor)

/-- A number of repetitions that is enough for every loop. -/
def limit : Parse Nat := fun cursor => some (cursor.limit, cursor)

/-- The word or operator of this text comes next. -/
def sees (text : String) : Parse Bool := do
  -- Words and operators never share a text.
  return (← next).text == text

/-- One of the words or operators comes next. -/
def seesAny (texts : List String) : Parse Bool := do
  -- The empty text stands for all other tokens and is never listed.
  return texts.contains (← next).text

/-- The word or operator of this text is taken. -/
def expect (text : String) : Parse Unit := do
  -- Anything else is an error.
  if (← take).symbol.text == text then return () else fail

/-- The word or operator of this text is taken if it comes next. -/
def accept (text : String) : Parse Bool := do
  -- Otherwise nothing is taken.
  if ← sees text then
    let _ ← take
    return true
  else return false

/-- The token of this symbol is taken. -/
def symbol (expected : Symbol) : Parse Unit := do
  -- Anything else is an error.
  if (← take).symbol == expected then return () else fail

/-- A parser is tried, and nothing is taken when it fails. -/
def attempt (parser : Parse α) : Parse (Option α) := fun cursor =>
  -- The cursor is kept for the case of failure.
  match parser cursor with
  | some (value, moved) => some (some value, moved)
  | none => some (none, cursor)

/-- What a parser finds, repeated as long as a condition holds; `done` are those found before, the
last one first. -/
def repeatFrom (condition : Parse Bool) (parser : Parse α) (done : List α) :
    Nat → Cursor → Option (List α × Cursor)
  | 0, _ => none
  | fuel + 1, cursor =>
    -- A failure of the parser is not the end of the repetition but of everything.
    match condition cursor with
    | none => none
    | some (false, moved) => some (done.reverse, moved)
    | some (true, moved) =>
      match parser moved with
      | none => none
      | some (value, further) => repeatFrom condition parser (value :: done) fuel further

/-- What a parser finds, repeated as long as a condition holds. -/
def repeatWhile (condition : Parse Bool) (parser : Parse α) : Parse (List α) := fun cursor =>
  -- Each round takes a token, so the limit is never reached.
  repeatFrom condition parser [] (cursor.limit + 1) cursor

/-- Items with commas between them and maybe one behind, up to something that ends them; the second
part tells whether there was any comma. -/
def commaSeparated (ends : Parse Bool) (item : Parse α) : Parse (List α × Bool) := do
  -- The end is looked for before the first item and behind each comma.
  if ← ends then return ([], false)
  let first ← item
  let more : Parse Bool := do
    if ← accept "," then return !(← ends) else return false
  let comma ← sees ","
  let later ← repeatWhile more item
  return (first :: later, comma)

/-- A node that starts with the next token and ends with the last token taken for its children. -/
def node (kind : Kind) (role : Role) (children : Parse (List Node)) : Parse Node := do
  -- Comments and joins at either end do not belong to it.
  let start ← here
  let parts ← children
  return .mk kind role start (← behind) parts

end Parse

/-- A comment or a join as a node. -/
def Token.triviaNode (token : Token) : Node :=
  -- All other tokens count as joins, but none is ever asked for.
  let kind := match token.symbol with
    | .comment => Kind.comment
    | _ => .lineJoin
  .mk kind .part token.start token.stop []

/-- A node put before the first of those that start behind it. -/
def insertNode (node : Node) : List Node → List Node
  | [] => [node]
  | other :: rest =>
    -- The nodes stand in the order in which they start.
    if node.start.offset < other.start.offset then node :: other :: rest
    else other :: insertNode node rest

/-- A place lies inside a node. -/
def Node.holds (node : Node) (mark : Mark) : Bool :=
  -- Ends touch without holding.
  node.start.offset ≤ mark.offset && mark.offset < node.stop.offset

/-- A node with those of the comments and joins as children that lie in it but in none of its
children. -/
def Node.withTrivia (trivia : List Token) : Node → Node
  | .mk kind role start stop children =>
    -- Those passed last come first, so older ones before the node are never looked at.
    let inside := (trivia.takeWhile fun token => start.offset ≤ token.start.offset).filter
      fun token => token.stop.offset ≤ stop.offset &&
        !children.any fun child => child.holds token.start
    .mk kind role start stop
      (inside.foldl (fun nodes token => insertNode token.triviaNode nodes) children)

/-- A node with the comments and joins that belong to it. -/
def Parse.withTrivia (parser : Parse Node) : Parse Node := do
  -- Everything passed up to the end of the node is known by then.
  let node ← parser
  return node.withTrivia (← get).trivia

end SourceOutline.Python
