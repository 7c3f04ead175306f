import SourceOutline.Python.Header

/-! The grammar of statements and the blocks they are laid out in. -/

namespace SourceOutline.Python

mutual

/-- A node with other places. -/
def Node.relocate (move : Mark → Mark) : Node → Node
  | .mk kind role start stop children =>
    .mk kind role (move start) (move stop) (Node.relocateAll move children)

/-- Nodes with other places. -/
def Node.relocateAll (move : Mark → Mark) : List Node → List Node
  | [] => []
  | node :: rest => node.relocate move :: Node.relocateAll move rest

end

/-- The same node with another end. -/
def Node.upTo (stop : Mark) : Node → Node
  | .mk kind role start _ children => .mk kind role start stop children

/-- What stands on a line, with other places. -/
def Content.relocate (move : Mark → Mark) : Content → Content
  | .simple statements => .simple (Node.relocateAll move statements)
  | .decorator applied => .decorator (Node.relocateAll move applied)
  | .header head => .header { head with
      parts := Node.relocateAll move head.parts
      body := head.body.map (Node.relocate move) }

namespace Line

/-- The token of a symbol that is the one of a number on its line. -/
def numbered (number : Nat) (symbol : Symbol) : Token :=
  -- Its start and its end get numbers of their own.
  ⟨symbol, { offset := 2 * number }, { offset := 2 * number + 1 }⟩

/-- The tokens of the line and its end, with numbers in place of places. -/
def numberedTokens (line : Line) : List Token :=
  -- What is parsed depends on the symbols alone.
  (line.tokens.map Token.symbol ++ [Symbol.newline]).mapIdx numbered

/-- The place of a number on the line. -/
def place (line : Line) (number : Mark) : Mark :=
  -- Even numbers stand for starts and odd ones for ends; the end of the line comes last.
  match line.tokens.toArray[number.offset / 2]? with
  | some token => if number.offset % 2 = 0 then token.start else token.stop
  | none => line.stop

/-- What stands on the line, or nothing when the grammar does not allow it. -/
def read (line : Line) (grammar : Parse Content) : Option Content :=
  -- No loop goes on for longer than there are tokens.
  let tokens := line.numberedTokens
  (grammar { tokens := tokens, limit := tokens.length }).map fun found =>
    found.1.relocate line.place

/-- The joins above the line as nodes. -/
def joins (notes : List Note) : List Node :=
  -- Comments leave no trace in a block.
  ((notes.map Note.token).filter fun token => token.symbol == .lineJoin).map Token.triviaNode

end Line

/-- The lines of the body of a header at a level, at the front of those below the header. -/
def bodyLines (level : Nat) : List Line → List Line
  | [] => []
  | first :: rest =>
    -- The first line sets the margin, which must exceed the level.
    if first.margin ≤ level then []
    else first :: rest.takeWhile fun line => first.margin ≤ line.margin

/-- No more lines belong to a body than there are. -/
theorem length_bodyLines_le (level : Nat) (lines : List Line) :
    (bodyLines level lines).length ≤ lines.length := by
  cases lines with
  | nil => simp [bodyLines]
  | cons first rest =>
    simp only [bodyLines]
    split
    · simp
    · exact Nat.succ_le_succ (List.takeWhile_sublist _).length_le

/-- The notes between some lines and those that follow, given the notes behind all of them. -/
def notesBehind (tail : List Note) (lines : List Line) : List Note :=
  -- They stand above the next line.
  (lines.head?.map Line.notes).getD tail

/-- Where a block at a level ends whose last line is given, with the notes behind it. -/
def blockStop (level : Nat) (last : Line) (behind : List Note) : Mark :=
  -- Comments belong to it while they are indented as far as the block.
  ((behind.takeWhile (Note.reaches level)).getLast?.map fun note => note.token.stop).getD last.stop

mutual

/-- The statements on some lines of a block at a level, given the notes behind the block. -/
def statements (grammar : Parse Content) (level : Nat) (tail : List Note) :
    List Line → Option (List Node)
  | [] => some []
  | line :: rest => do
    -- A statement may take lines below its own.
    let (found, taken) ← statement grammar level tail line rest
    let later ← statements grammar level tail (rest.drop taken)
    return Line.joins line.notes ++ found ++ later
termination_by lines => 4 * lines.length

/-- The statements that start on a line, and how many lines below it they take. -/
def statement (grammar : Parse Content) (level : Nat) (tail : List Note) (line : Line)
    (rest : List Line) : Option (List Node × Nat) := do
  -- Decorators belong to the definition below them.
  match ← line.read grammar with
  | .simple found => return (found, 0)
  | .decorator applied =>
    let (below, taken) ← decorated level tail rest
    let stop := (below.getLast?.map Node.stop).getD line.stop
    return ([.mk .decoratedDefinition .part line.start stop (applied ++ below)], taken)
  | .header head =>
    let (found, taken) ← compound level tail line head .part rest
    return ([found], taken)
termination_by 4 * rest.length + 3

/-- Further decorators and the definition below them, and how many lines they take. -/
def decorated (level : Nat) (tail : List Note) : List Line → Option (List Node × Nat)
  | [] => none
  | line :: rest => do
    match ← line.read lineContent with
    | .simple _ => none
    | .decorator applied =>
      let (below, taken) ← decorated level tail rest
      return (applied ++ below, taken + 1)
    | .header head =>
      -- Only definitions may be decorated.
      if head.kind = .functionDefinition ∨ head.kind = .classDefinition then
        let (found, taken) ← compound level tail line head .definition rest
        return ([found], taken + 1)
      else none
termination_by lines => 4 * lines.length + 2

/-- The statement of a header, and how many lines below the header it takes. -/
def compound (level : Nat) (tail : List Note) (line : Line) (head : Head) (role : Role)
    (rest : List Line) : Option (Node × Nat) := do
  -- The statement ends with its last clause.
  let (body, taken) ← suite level tail line head rest
  let (later, more) ← clauses head.stage level tail (rest.drop taken)
  let stop := ((body :: later).getLast?.map Node.stop).getD line.stop
  return (.mk head.kind role line.start stop (head.parts ++ body :: later), taken + more)
termination_by 4 * rest.length + 2

/-- The body of a header, and how many lines below the header it takes. -/
def suite (level : Nat) (tail : List Note) (line : Line) (head : Head) (rest : List Line) :
    Option (Node × Nat) :=
  -- A body on the line of its header takes in the comment behind it; without a line indented
  -- further than the level around it, the body is empty.
  match head.body with
  | some block => some (block.upTo line.stop, 0)
  | none =>
    match taken : bodyLines level rest with
    | [] => some (.mk .block .body line.stop line.stop [], 0)
    | first :: later => do
      have fewer : later.length + 1 ≤ rest.length := by
        simpa [taken] using length_bodyLines_le level rest
      let grammar := if head.holdsCases then caseContent else lineContent
      let behind := notesBehind tail (rest.drop (first :: later).length)
      let children ← statements grammar first.margin behind ({ first with notes := [] } :: later)
      let start := (children.head?.map Node.start).getD line.stop
      let last := (first :: later).getLast (by simp)
      return (.mk .block .body start (blockStop first.margin last behind) children,
        (first :: later).length)
termination_by 4 * rest.length + 1

/-- The clauses that may follow at a stage, and how many lines they take. -/
def clauses (stage : Stage) (level : Nat) (tail : List Note) :
    List Line → Option (List Node × Nat)
  | [] => if stage.mayEnd then some ([], 0) else none
  | line :: rest =>
    -- Each clause starts with a word on a line of its own.
    let word := line.firstSymbol.text
    match stage.follow word with
    | none => if stage.mayEnd then some ([], 0) else none
    | some next => do
      match ← line.read (clauseContent word) with
      | .header head =>
        let (body, taken) ← suite level tail line head rest
        let (later, more) ← clauses next level tail (rest.drop taken)
        return (.mk .clause .part line.start body.stop (head.parts ++ [body]) :: later,
          taken + more + 1)
      | _ => none
termination_by lines => 4 * lines.length + 1

end

/-- The syntax tree of a source, or nothing when the source is not a program. -/
def parse (source : List Char) : Option Node := do
  -- All lines belong to the module, and it extends to the end of the source.
  let layout ← layoutOf source
  let children ← statements lineContent 0 layout.notes layout.lines
  return .mk .module .part {} (Mark.pass {} source) (children ++ Line.joins layout.notes)

end SourceOutline.Python
