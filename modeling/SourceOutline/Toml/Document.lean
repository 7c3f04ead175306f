import SourceOutline.Toml.Value

/-! Documents: the lines of a text put together to one table. -/

namespace SourceOutline.Toml

/-- How a table came into being, which decides where it may be taken up again. -/
inductive Origin where
  /-- By a header of its own. -/
  | header
  /-- By the header of a table inside it. -/
  | implied
  /-- By a path of names before a value. -/
  | dotted
  deriving DecidableEq

/-- What stands under a name while a document is put together. -/
inductive Item where
  /-- A finished value. -/
  | value (value : Value)
  /-- A table. -/
  | table (origin : Origin) (items : List (String × Item))
  /-- An array of tables, the last one first. -/
  | tables (items : List (List (String × Item)))

/-- The items of a table. -/
abbrev Items : Type := List (String × Item)

/-- The item under a name. -/
def findItem (name : String) (items : Items) : Option Item :=
  -- A name stands at most once.
  (items.find? fun item => item.1 == name).map Prod.snd

/-- The items with one put under a name. -/
def putItem (name : String) (item : Item) (items : Items) : Items :=
  -- A new name goes to the end.
  if items.any fun other => other.1 == name then
    items.map fun other => if other.1 == name then (name, item) else other
  else items ++ [(name, item)]

/-- A value put under a path of names. -/
def putValue (value : Value) : List String → Items → Option Items
  | [], _ => none
  | [name], items =>
    -- A name must not be given twice.
    match findItem name items with
    | none => some (putItem name (.value value) items)
    | some _ => none
  | name :: rest, items =>
    -- Only tables that arose the same way are taken up again.
    match findItem name items with
    | none => (putValue value rest []).map fun inner => putItem name (.table .dotted inner) items
    | some (.table .dotted inner) =>
      (putValue value rest inner).map fun inner => putItem name (.table .dotted inner) items
    | some _ => none

/-- A table opened by a header under a path of names. -/
def openTable : List String → Items → Option Items
  | [], _ => none
  | [name], items =>
    -- A table that was only implied so far gets its header now.
    match findItem name items with
    | none => some (putItem name (.table .header []) items)
    | some (.table .implied inner) => some (putItem name (.table .header inner) items)
    | some _ => none
  | name :: rest, items =>
    match findItem name items with
    | none => (openTable rest []).map fun inner => putItem name (.table .implied inner) items
    | some (.table origin inner) =>
      (openTable rest inner).map fun inner => putItem name (.table origin inner) items
    | some (.tables (last :: earlier)) =>
      (openTable rest last).map fun last => putItem name (.tables (last :: earlier)) items
    | some _ => none

/-- One more table opened in an array of tables under a path of names. -/
def openArray : List String → Items → Option Items
  | [], _ => none
  | [name], items =>
    -- Only an array of tables may grow.
    match findItem name items with
    | none => some (putItem name (.tables [[]]) items)
    | some (.tables tables) => some (putItem name (.tables ([] :: tables)) items)
    | some _ => none
  | name :: rest, items =>
    match findItem name items with
    | none => (openArray rest []).map fun inner => putItem name (.table .implied inner) items
    | some (.table origin inner) =>
      (openArray rest inner).map fun inner => putItem name (.table origin inner) items
    | some (.tables (last :: earlier)) =>
      (openArray rest last).map fun last => putItem name (.tables (last :: earlier)) items
    | some _ => none

/-- A value put under a path of names inside the table of a header. -/
def putInside (path : List String) (value : Value) : List String → Items → Option Items
  | [], items => putValue value path items
  | name :: rest, items =>
    -- The header has opened all tables on the way.
    match findItem name items with
    | some (.table origin inner) =>
      (putInside path value rest inner).map fun inner => putItem name (.table origin inner) items
    | some (.tables (last :: earlier)) =>
      (putInside path value rest last).map fun last => putItem name (.tables (last :: earlier)) items
    | _ => none

/-- How far a document has been put together. -/
structure Draft where
  /-- The items of the document. -/
  items : Items := []
  /-- The path of the header above. -/
  current : List String := []

/-- The effect of one line. -/
def Draft.step (draft : Draft) (line : Line) : Option Draft :=
  -- Values go into the table of the header above them.
  match line with
  | .entry path value =>
    (putInside path value draft.current draft.items).map fun items => { draft with items := items }
  | .header path => (openTable path draft.items).map fun items => ⟨items, path⟩
  | .arrayHeader path => (openArray path draft.items).map fun items => ⟨items, path⟩

mutual

/-- The value of an item. -/
def Item.finish : Item → Value
  | .value value => value
  | .table _ items => .table (finishItems items)
  | .tables tables => .array (finishTables tables).reverse

/-- The values of the items of a table. -/
def finishItems : List (String × Item) → List (String × Value)
  | [] => []
  | item :: rest => (item.1, item.2.finish) :: finishItems rest

/-- The values of tables. -/
def finishTables : List (List (String × Item)) → List Value
  | [] => []
  | items :: rest => .table (finishItems items) :: finishTables rest

end

/-- The table that lines make up, unless they contradict each other. -/
def assemble (lines : List Line) : Option (List (String × Value)) :=
  -- The lines take effect one after the other.
  (lines.foldlM Draft.step {}).map fun draft => finishItems draft.items

/-- The value of an inline table with values under paths of names. -/
def inlineTable (entries : List (List String × Value)) : Option Value :=
  -- Inside braces the same rules hold as for lines without headers.
  (assemble (entries.map fun entry => .entry entry.1 entry.2)).map .table

end SourceOutline.Toml
