/-! Maps from names to values, held in ascending order of the names. -/

namespace SourceOutline

/-- Pairs with an entry put in place of the one of the same name, or else in its ordered place. -/
def putEntry {α : Type} (name : String) (value : α) : List (String × α) → List (String × α)
  | [] => [(name, value)]
  | entry :: rest =>
    -- The pairs ascend, so the first name that is not smaller decides.
    if name < entry.1 then (name, value) :: entry :: rest
    else if name = entry.1 then (name, value) :: rest
    else entry :: putEntry name value rest

/-- The pairs are those from before, apart from the one that was put. -/
theorem mem_putEntry {α : Type} {name : String} {value : α} {entries : List (String × α)}
    {pair : String × α} (member : pair ∈ putEntry name value entries) :
    pair = (name, value) ∨ pair ∈ entries := by
  -- Each branch keeps the old pairs and adds at most the new one.
  induction entries with
  | nil => simpa [putEntry] using member
  | cons entry rest ih =>
    simp only [putEntry] at member
    split at member
    · simpa using member
    · split at member
      · rcases List.mem_cons.mp member with same | old
        · exact .inl same
        · exact .inr (List.mem_cons_of_mem _ old)
      · rcases List.mem_cons.mp member with same | later
        · exact .inr (by simp [same])
        · exact (ih later).imp_right (List.mem_cons_of_mem _)

/-- Putting an entry keeps the names in ascending order. -/
theorem pairwise_putEntry {α : Type} {name : String} {value : α} {entries : List (String × α)}
    (ascending : entries.Pairwise fun a b => a.1 < b.1) :
    (putEntry name value entries).Pairwise fun a b => a.1 < b.1 := by
  -- The new name is compared with the first one, which is below all the others.
  induction entries with
  | nil => simp [putEntry]
  | cons entry rest ih =>
    have below := (List.pairwise_cons.mp ascending).1
    have later := (List.pairwise_cons.mp ascending).2
    simp only [putEntry]
    split
    · rename_i smaller
      refine List.pairwise_cons.mpr ⟨fun pair member => ?_, ascending⟩
      rcases List.mem_cons.mp member with same | old
      · exact same ▸ smaller
      · exact String.lt_trans smaller (below pair old)
    · rename_i notSmaller
      split
      · rename_i same
        exact List.pairwise_cons.mpr ⟨fun pair member => same ▸ below pair member, later⟩
      · rename_i different
        refine List.pairwise_cons.mpr ⟨fun pair member => ?_, ih later⟩
        rcases mem_putEntry member with same | old
        · subst same
          have above := String.not_lt.mp notSmaller
          apply Classical.byContradiction
          intro notBelow
          exact different (String.le_antisymm (String.not_lt.mp notBelow) above)
        · exact below pair old

/-- A finite map from names to values. -/
structure NameMap (α : Type) where
  /-- The pairs of the map. -/
  entries : List (String × α)
  /-- Each name stands before all larger ones, hence at most once. -/
  ascending : entries.Pairwise fun a b => a.1 < b.1
  deriving DecidableEq

namespace NameMap

variable {α : Type}

/-- The map without any pair. -/
def empty : NameMap α := ⟨[], .nil⟩

instance : Inhabited (NameMap α) := ⟨empty⟩

/-- The map with a name bound to a value, which replaces an earlier one. -/
def insert (map : NameMap α) (name : String) (value : α) : NameMap α :=
  -- Order is kept by the place the entry is put at.
  ⟨putEntry name value map.entries, pairwise_putEntry map.ascending⟩

/-- The map of a list of pairs, where of two pairs with one name the later wins. -/
def ofList (pairs : List (String × α)) : NameMap α :=
  -- The pairs are inserted in the order in which they stand.
  pairs.foldl (fun map pair => map.insert pair.1 pair.2) empty

/-- The value bound to a name. -/
def find? (map : NameMap α) (name : String) : Option α :=
  -- A name occurs at most once, so the first hit is the only one.
  (map.entries.find? fun entry => entry.1 == name).map Prod.snd

/-- The names of the map in ascending order. -/
def names (map : NameMap α) : List String :=
  -- The pairs already stand in that order.
  map.entries.map Prod.fst

/-- The value that was inserted is found under its name. -/
@[simp] theorem find?_insert_self (map : NameMap α) (name : String) (value : α) :
    (map.insert name value).find? name = some value := by
  -- The entry is put in front of every other that could have its name.
  simp only [find?, insert]
  induction map.entries with
  | nil => simp [putEntry]
  | cons entry rest ih =>
    simp only [putEntry]
    split
    · simp
    · split
      · simp
      · rename_i different
        have other : (entry.1 == name) = false := by simpa using fun same => different same.symm
        simpa [List.find?_cons, other] using ih

/-- Other names keep their values. -/
theorem find?_insert_of_ne (map : NameMap α) {name other : String} (value : α)
    (different : other ≠ name) : (map.insert name value).find? other = map.find? other := by
  -- The only entry that comes or goes is that of the name itself.
  simp only [find?, insert]
  have apart : (name == other) = false := by simpa using fun same => different same.symm
  induction map.entries with
  | nil => simp [putEntry, apart]
  | cons entry rest ih =>
    simp only [putEntry]
    split
    · simp [List.find?_cons, apart]
    · split
      · rename_i same
        simp [apart, ← same]
      · simp only [List.find?_cons]
        split
        · rfl
        · exact ih

/-- The names are those from before and the one that was inserted. -/
theorem mem_names_insert (map : NameMap α) (name : String) (value : α) (other : String) :
    other ∈ (map.insert name value).names ↔ other = name ∨ other ∈ map.names := by
  -- An entry that gives way leaves its name to the one that takes its place.
  simp only [names, insert]
  induction map.entries with
  | nil => simp [putEntry]
  | cons entry rest ih =>
    simp only [putEntry]
    split
    · simp
    · split
      · rename_i same
        simp [← same]
      · simp only [List.map_cons, List.mem_cons, ih]
        exact or_left_comm

/-- Of the pairs put into a map the last one of a name counts, and without one the map as it was. -/
theorem find?_foldl_insert (pairs : List (String × α)) (map : NameMap α) (name : String) :
    (pairs.foldl (fun map pair => map.insert pair.1 pair.2) map).find? name =
      (((pairs.filter fun pair => pair.1 == name).getLast?).map Prod.snd).or (map.find? name) := by
  induction pairs generalizing map with
  | nil => rfl
  | cons pair rest ih =>
    rw [List.foldl_cons, ih]
    by_cases same : pair.1 = name
    · -- Any later pair of the name wins over this one.
      subst same
      cases later : (rest.filter fun other => other.1 == pair.1).getLast? <;>
        simp [List.getLast?_cons, later]
    · have other : (pair.1 == name) = false := by simpa using same
      rw [find?_insert_of_ne _ _ fun again => same again.symm]
      simp [other]

/-- In the map of a list of pairs a name has the value of its last pair. -/
theorem find?_ofList (pairs : List (String × α)) (name : String) :
    (ofList pairs).find? name =
      ((pairs.filter fun pair => pair.1 == name).getLast?).map Prod.snd := by
  have found := find?_foldl_insert pairs empty name
  rwa [show (empty : NameMap α).find? name = none from rfl, Option.or_none] at found

end NameMap

end SourceOutline
