import Mathlib.Data.List.Nodup
import SourceOutline.Outline.Record

/-! What a function is after all its parameters have been added. -/

namespace SourceOutline

/-- The listed parameters that have a type, which is a text other than the empty one. -/
def typed (listed : List (String × Option String)) : List (String × String) :=
  -- A parameter without type leaves no pair.
  listed.filterMap fun parameter =>
    (parameter.2.filter fun type => !type.isEmpty).map fun type => (parameter.1, type)

/-- Parameters added one by one change nothing but the list of parameters and the types. -/
theorem FunctionOutline.foldl_addParameter (listed : List (String × Option String))
    (start : FunctionOutline) :
    listed.foldl (fun outline parameter => outline.addParameter parameter.1 parameter.2) start =
      { start with
        parameters := start.parameters ++ listed.map Prod.fst
        annotations := (typed listed).foldl (fun map pair => map.insert pair.1 pair.2)
          start.annotations } := by
  induction listed generalizing start with
  | nil => simp [typed]
  | cons parameter rest ih =>
    obtain ⟨name, type⟩ := parameter
    rw [List.foldl_cons, ih]
    cases type with
    | none => simp [addParameter, typed]
    | some text =>
      by_cases empty : text = "" <;>
        simp [addParameter, typed, Option.filter, empty]

namespace NameMap

variable {α : Type}

/-- What is found in the map of a list of pairs is one of the pairs. -/
theorem mem_of_find?_ofList {pairs : List (String × α)} {name : String} {value : α}
    (found : (ofList pairs).find? name = some value) : (name, value) ∈ pairs := by
  rw [find?_ofList, Option.map_eq_some_iff] at found
  obtain ⟨⟨key, held⟩, last, rfl⟩ := found
  obtain ⟨member, same⟩ := List.mem_filter.mp (List.mem_of_getLast? last)
  have named : key = name := by simpa using same
  exact named ▸ member

/-- When no name is given twice, exactly the pairs are found. -/
theorem find?_ofList_eq_some_iff {pairs : List (String × α)} (nodup : (pairs.map Prod.fst).Nodup)
    {name : String} {value : α} :
    (ofList pairs).find? name = some value ↔ (name, value) ∈ pairs := by
  refine ⟨mem_of_find?_ofList, fun member => ?_⟩
  -- Another pair of the name would be the same pair.
  have inside : (name, value) ∈ pairs.filter fun pair => pair.1 == name := by
    simpa using member
  obtain ⟨last, isLast⟩ : ∃ last, (pairs.filter fun pair => pair.1 == name).getLast? = some last :=
    ⟨_, List.getLast?_eq_some_getLast (List.ne_nil_of_mem inside)⟩
  obtain ⟨lastMember, lastName⟩ := List.mem_filter.mp (List.mem_of_getLast? isLast)
  have same : last = (name, value) :=
    List.inj_on_of_nodup_map nodup lastMember member (by simpa using lastName)
  rw [find?_ofList, isLast, same]
  rfl

/-- The names of the map of a list of pairs are those of the pairs. -/
theorem mem_names_ofList {pairs : List (String × α)} {name : String} :
    name ∈ (ofList pairs).names ↔ name ∈ pairs.map Prod.fst := by
  have each : ∀ map : NameMap α,
      name ∈ (pairs.foldl (fun map pair => map.insert pair.1 pair.2) map).names ↔
        name ∈ pairs.map Prod.fst ∨ name ∈ map.names := by
    induction pairs with
    | nil => simp
    | cons pair rest ih =>
      intro map
      rw [List.foldl_cons, ih, mem_names_insert, List.map_cons, List.mem_cons]
      tauto
  rw [ofList, each]
  simp [names, empty]

end NameMap

end SourceOutline
