/-! Patterns for paths. -/

namespace SourceOutline.Ignore

/-- A part of a pattern. -/
inductive Part where
  /-- The character itself. -/
  | literal (c : Char)
  /-- Any single byte except a slash. -/
  | anyByte
  /-- Any run of bytes without a slash. -/
  | anyRun
  /-- Nothing, or any directories at the start of a path. -/
  | anyStart
  /-- A slash and anything below it. -/
  | anyEnd
  /-- A slash, or any directories between two slashes. -/
  | anyMiddle
  /-- A single byte in or outside some ranges of bytes. -/
  | oneOf (negated : Bool) (ranges : List (UInt8 × UInt8))
  /-- Any of some patterns. -/
  | choice (branches : List (List Part))

namespace Part

/-- The byte that separates the names of a path. -/
def slash : UInt8 := 0x2F

/-- The text with each of the runs without a slash dropped from its start. -/
def afterRuns : List UInt8 → List (List UInt8)
  | [] => [[]]
  | byte :: rest => (byte :: rest) :: if byte == slash then [] else afterRuns rest

/-- What stands behind each of the slashes of a text. -/
def afterSlashes : List UInt8 → List (List UInt8)
  | [] => []
  | byte :: rest => if byte == slash then rest :: afterSlashes rest else afterSlashes rest

/-- All ends of a text. -/
def ends : List UInt8 → List (List UInt8)
  | [] => [[]]
  | byte :: rest => (byte :: rest) :: ends rest

/-- A text starts with a slash, and what follows is acceptable. -/
def behindSlash (next : List UInt8 → Bool) : List UInt8 → Bool
  | [] => false
  | byte :: rest => byte == slash && next rest

mutual

/-- A part covers the start of a text so that the rest is acceptable. -/
def covers (next : List UInt8 → Bool) (text : List UInt8) : Part → Bool
  | .literal c =>
    match (String.utf8EncodeChar c).isPrefixOf? text with
    | some rest => next rest
    | none => false
  | .anyByte =>
    match text with
    | [] => false
    | byte :: rest => byte != slash && next rest
  | .anyRun => (afterRuns text).any next
  | .anyStart => next text || (afterSlashes text).any next
  | .anyEnd => behindSlash (fun rest => (ends rest).any next) text
  | .anyMiddle => behindSlash (fun rest => next rest || (afterSlashes rest).any next) text
  | .oneOf negated ranges =>
    match text with
    | [] => false
    | byte :: rest =>
      (ranges.any fun range => range.1 ≤ byte && byte ≤ range.2) != negated && next rest
  | .choice branches =>
    if branches.isEmpty then next text else coversAny next text branches

/-- Parts cover the start of a text one after the other so that the rest is acceptable. -/
def coversAll (next : List UInt8 → Bool) (text : List UInt8) : List Part → Bool
  | [] => next text
  | part :: parts => part.covers (fun rest => coversAll next rest parts) text

/-- One of some patterns covers the start of a text so that the rest is acceptable. -/
def coversAny (next : List UInt8 → Bool) (text : List UInt8) : List (List Part) → Bool
  | [] => false
  | branch :: branches => coversAll next text branch || coversAny next text branches

end

/-- The part stands for nothing at all, as a choice without branches does. -/
def isVoid : Part → Bool
  | .choice branches => branches.isEmpty
  | _ => false

end Part

/-- The bytes of a text. -/
def bytesOf (text : String) : List UInt8 :=
  -- Every character has one to four bytes.
  text.toList.flatMap String.utf8EncodeChar

/-- A pattern as a list of parts covers a whole path. -/
def covers (parts : List Part) (path : String) : Bool :=
  -- Nothing may be left, and the pattern that is only a start covers everything.
  match parts with
  | [.anyStart] => true
  | parts => Part.coversAll List.isEmpty (bytesOf path) parts

/-- How a class of characters between brackets ends. -/
inductive ClassEnd where
  /-- At its bracket, with the ranges found, the last one first. -/
  | closed (ranges : List (Char × Char)) (rest : List Char)
  /-- At a range whose ends are in the wrong order. -/
  | misordered
  /-- Not at all. -/
  | unclosed

/-- The ranges of a class, given those already found and whether a range waits for its end. -/
def classRanges (ranges : List (Char × Char)) (waiting : Bool) : List Char → ClassEnd
  | [] => .unclosed
  | c :: rest =>
    -- A bracket is itself in front of everything else, and so is a hyphen at either end.
    match ranges, waiting with
    | [], _ => classRanges [(c, c)] false rest
    | (low, high) :: earlier, true =>
      if c == ']' then .closed (('-', '-') :: (low, high) :: earlier) rest
      else if c < low then .misordered
      else classRanges ((low, c) :: earlier) false rest
    | ranges, false =>
      if c == ']' then .closed ranges rest
      else if c == '-' then classRanges ranges true rest
      else classRanges ((c, c) :: ranges) false rest

/-- The bytes of a range of characters: those of its ends, and between the last and the first. -/
def byteRanges (range : Char × Char) : List (UInt8 × UInt8) :=
  -- A class covers a single byte, whatever its characters take.
  let low := String.utf8EncodeChar range.1
  let high := String.utf8EncodeChar range.2
  let single (bytes : List UInt8) := bytes.map fun byte => (byte, byte)
  if range.1 == range.2 then single low
  else single low.dropLast ++ [(low.getLastD 0, high.headD 0)] ++ single high.tail

/-- A pattern while it is read. -/
structure Reading where
  /-- The parts of the branch under way, the last one first. -/
  parts : List Part := []
  /-- For each open choice, its finished branches and the parts in front of it, the last first. -/
  choices : List (List (List Part) × List Part) := []
  /-- A bracket was found that is never closed, so that brackets stand for themselves. -/
  plainBrackets : Bool := false

namespace Reading

/-- One more part. -/
def push (reading : Reading) (part : Part) : Reading :=
  -- The newest part stands first.
  { reading with parts := part :: reading.parts }

/-- A choice is opened. -/
def openChoice (reading : Reading) : Reading :=
  -- Its first branch is empty.
  { reading with parts := [], choices := ([], reading.parts) :: reading.choices }

/-- A comma ends a branch of an open choice. -/
def nextBranch (reading : Reading) : Reading :=
  -- Outside of choices a comma stands for itself.
  match reading.choices with
  | [] => reading.push (.literal ',')
  | (branches, before) :: outer =>
    { reading with parts := [], choices := (reading.parts.reverse :: branches, before) :: outer }

/-- A choice is closed, if one is open. -/
def closeChoice (reading : Reading) : Option Reading :=
  -- Branches that stand for nothing are not offered.
  match reading.choices with
  | [] => none
  | (branches, before) :: outer =>
    let offered := ((reading.parts.reverse :: branches).reverse).filter fun branch =>
      !branch.all Part.isVoid
    some { reading with parts := .choice offered :: before, choices := outer }

/-- The last part gives way to one that covers any directories. -/
def widen (reading : Reading) (wide : Part) : Reading :=
  -- What already covers any directories stays as it is.
  match reading.parts with
  | .anyStart :: _ | .anyEnd :: _ => reading
  | _ :: earlier => { reading with parts := wide :: earlier }
  | [] => reading

/-- Two stars: the pattern so far and what follows them. -/
def stars (reading : Reading) (before : Option Char) (rest : List Char) : Reading × List Char :=
  -- They cover directories only where they fill the space between slashes.
  let runs := ((reading.push .anyRun).push .anyRun, rest)
  if reading.parts.isEmpty then
    match rest with
    | [] => (reading.push .anyStart, [])
    | '/' :: later => (reading.push .anyStart, later)
    | _ => runs
  else
    let inside := !reading.choices.isEmpty
    let opened := before == some '/' || (inside && (before == some ',' || before == some '\x7b'))
    match rest with
    | [] => if opened then (reading.widen .anyEnd, []) else runs
    | '/' :: later => if opened then (reading.widen .anyMiddle, later) else runs
    | c :: _ =>
      if opened && inside && (c == ',' || c == '\x7d') then (reading.widen .anyEnd, rest) else runs

/-- A class of characters whose opening bracket has been passed: the pattern so far and what follows
the class, or nothing when it is misordered. -/
def bracket (reading : Reading) (rest : List Char) : Option (Reading × List Char) :=
  -- A bracket that is never closed stands for itself.
  let (negated, body) := match rest with
    | '!' :: later | '^' :: later => (true, later)
    | body => (false, body)
  match classRanges [] false body with
  | .closed ranges later => some (reading.push (.oneOf negated (ranges.flatMap byteRanges)), later)
  | .misordered => none
  | .unclosed => some ({ reading.push (.literal '[') with plainBrackets := true }, rest)

/-- The pattern that some characters go on with, given the character before them. -/
def continued (reading : Reading) (before : Option Char) : Nat → List Char → Option Reading
  | 0, _ => none
  | _ + 1, [] => some reading
  | fuel + 1, c :: rest =>
    -- Outside of classes a backslash takes the meaning away from what follows.
    match c, rest with
    | '?', rest => (reading.push .anyByte).continued (some c) fuel rest
    | '*', '*' :: rest =>
      let (reading, later) := reading.stars before rest
      let passed := if later.length < rest.length then '/' else '*'
      reading.continued (some passed) fuel later
    | '*', rest => (reading.push .anyRun).continued (some c) fuel rest
    | '\\', [] => none
    | '\\', escaped :: rest => (reading.push (.literal escaped)).continued (some escaped) fuel rest
    | c, rest =>
      if c == '[' && !reading.plainBrackets then do
        let (reading, later) ← reading.bracket rest
        let passed := if later.length < rest.length then ']' else '['
        reading.continued (some passed) fuel later
      else if c == '\x7b' then reading.openChoice.continued (some c) fuel rest
      else if c == '\x7d' then do (← reading.closeChoice).continued (some c) fuel rest
      else if c == ',' then reading.nextBranch.continued (some c) fuel rest
      else (reading.push (.literal c)).continued (some c) fuel rest

end Reading

/-- The parts of a written pattern, unless it is faulty. -/
def parsePattern (pattern : List Char) : Option (List Part) :=
  -- Each step passes a character, and no choice may be left open.
  match Reading.continued {} none (pattern.length + 1) pattern with
  | some reading => if reading.choices.isEmpty then some reading.parts.reverse else none
  | none => none

end SourceOutline.Ignore
