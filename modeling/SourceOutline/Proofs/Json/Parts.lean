import Mathlib.Data.List.Forall2
import SourceOutline.Proofs.Json.Fields

/-! What a record that was read tells of the parts of its value, however the value holds them. -/

namespace SourceOutline

namespace Json

/-- A part of a value, which is told by its name or by its place. -/
def part? (name : String) (index : Nat) : Json → Option Json
  | .object fields => (Json.object fields).get? name
  | .array items => items[index]?
  | _ => none

/-- The items of a part that is a sequence. -/
def partItems (name : String) (index : Nat) (value : Json) : List Json :=
  ((value.part? name index).bind items?).getD []

/-- A part is smaller than the value that holds it. -/
theorem sizeOf_lt_of_part? {name : String} {index : Nat} {value part : Json}
    (told : value.part? name index = some part) : sizeOf part < sizeOf value := by
  cases value with
  | object fields =>
    obtain ⟨field, found, rfl⟩ := Option.map_eq_some_iff.mp told
    exact sizeOf_lt_object (List.mem_of_find?_eq_some found)
  | array items => exact sizeOf_lt_array (List.mem_of_getElem? told)
  | _ => cases told

end Json

/-- The parts of a value, each under its name and its place. -/
abbrev Parts : Type := String → Nat → Option Json

namespace Shape

variable {whole : Json} {α β : Type} {start : Nat}

/-- Whatever a shape reads from some place on is related to the parts that it is read from. -/
structure Finds (shape : Shape whole α) (start : Nat) (told : Parts → α → Prop) : Prop where
  /-- The parts are told by name. -/
  named : ∀ {fields inFields found}, shape.ofFields fields inFields = .ok found →
    told (fun name _ => (Json.object fields).get? name) found
  /-- The parts are told by place. -/
  placed : ∀ {expected items inItems found}, shape.ofItems start expected items inItems = .ok found →
    told (fun _ index => items[index]?) found

namespace Finds

/-- What follows of the parts of a record is related to them, too. -/
theorem mono {shape : Shape whole α} {told weaker : Parts → α → Prop} (finds : shape.Finds start told)
    (follows : ∀ parts found, told parts found → weaker parts found) : shape.Finds start weaker :=
  ⟨fun reads => follows _ _ (finds.named reads), fun reads => follows _ _ (finds.placed reads)⟩

/-- Nothing needs to be known of a part. -/
theorem anything (shape : Shape whole α) : shape.Finds start fun _ _ => True :=
  ⟨fun _ => trivial, fun _ => trivial⟩

/-- The first part of a record is told by what it is made of. -/
theorem map {shape : Shape whole α} {told : Parts → α → Prop} (finds : shape.Finds start told)
    (make : α → β) :
    (make <$> shape).Finds start fun parts found => ∃ a, told parts a ∧ make a = found := by
  constructor
  · intro fields inFields found reads
    obtain ⟨a, first, made⟩ := ofFields_map_eq_ok.mp reads
    exact ⟨a, finds.named first, made⟩
  · intro expected items inItems found reads
    obtain ⟨a, first, made⟩ := ofItems_map_eq_ok.mp reads
    exact ⟨a, finds.placed first, made⟩

/-- A record that goes on is told by its first parts and the one behind them. -/
theorem seq {left : Shape whole (α → β)} {right : Shape whole α} {before : Parts → (α → β) → Prop}
    {behind : Parts → α → Prop} (first : left.Finds start before)
    (second : right.Finds (start + left.names.length) behind) :
    (left <*> right).Finds start fun parts found =>
      ∃ make, before parts make ∧ ∃ a, behind parts a ∧ make a = found := by
  constructor
  · intro fields inFields found reads
    obtain ⟨make, a, isFirst, isSecond, made⟩ := ofFields_seq_eq_ok.mp reads
    exact ⟨make, first.named isFirst, a, second.named isSecond, made⟩
  · intro expected items inItems found reads
    obtain ⟨make, a, isFirst, isSecond, made⟩ := ofItems_seq_eq_ok.mp reads
    exact ⟨make, first.placed isFirst, a, second.placed isSecond, made⟩

/-- A field holds what its decoder reads, or it is left out. -/
theorem field {name : String} {unnamed : Except Fault α} {unplaced : Nat → String → Except DecodeError α}
    {decode : Decoder whole α} {missing : α → Prop} (noName : ∀ found, unnamed = .ok found → missing found)
    (noPlace : ∀ place expected found, unplaced place expected = .ok found → missing found) :
    (Shape.field name unnamed unplaced decode).Finds start fun parts found =>
      (∃ value small, parts name start = some value ∧ decode value small = .ok found) ∨
        parts name start = none ∧ missing found := by
  constructor
  · intro fields inFields found reads
    show (∃ value small, (Json.object fields).get? name = some value ∧ decode value small = .ok found) ∨
      (Json.object fields).get? name = none ∧ missing found
    rw [← lookup_eq]
    simp only [Shape.field] at reads
    cases there : lookup name fields with
    | none =>
      rw [there] at reads
      exact .inr ⟨rfl, noName found reads⟩
    | some entry =>
      rw [there] at reads
      exact .inl ⟨entry.1, _, rfl, mapError_eq_ok.mp reads⟩
  · intro expected items inItems found reads
    simp only [Shape.field] at reads
    split at reads
    · rename_i ends
      exact .inr ⟨ends, noPlace _ _ found reads⟩
    · rename_i value there
      exact .inl ⟨value, _, there, reads⟩

/-- A field that must be there holds what its decoder reads. -/
theorem required (name : String) (decode : Decoder whole α) :
    (Shape.required name decode).Finds start fun parts found =>
      ∃ value small, parts name start = some value ∧ decode value small = .ok found := by
  have either : (Shape.required name decode).Finds start fun parts found =>
      (∃ value small, parts name start = some value ∧ decode value small = .ok found) ∨
        parts name start = none ∧ False := field nofun nofun
  constructor
  · intro fields inFields found reads
    exact (either.named reads).resolve_right And.right
  · intro expected items inItems found reads
    exact (either.placed reads).resolve_right And.right

/-- A field with a default value holds what its decoder reads, or it is left out. -/
theorem defaulted (name : String) (default : α) (decode : Decoder whole α) :
    (Shape.defaulted name default decode).Finds start fun parts found =>
      (∃ value small, parts name start = some value ∧ decode value small = .ok found) ∨
        parts name start = none ∧ found = default :=
  field (fun _ same => (Except.ok.inj same).symm) fun _ _ _ same => (Except.ok.inj same).symm

/-- A field that may be absent holds what its decoder reads, or it is null or left out. -/
theorem optional (name : String) (decode : Decoder whole α) :
    (Shape.optional name decode).Finds start fun parts found =>
      (∃ value small a, parts name start = some value ∧ decode value small = .ok a ∧ found = some a) ∨
        (parts name start).getD .null = .null ∧ found = none := by
  have either : (Shape.optional name decode).Finds start fun parts found =>
      (∃ value small, parts name start = some value ∧ decode.nullable value small = .ok found) ∨
        parts name start = none ∧ found = none := field (fun _ same => (Except.ok.inj same).symm) nofun
  have opened : ∀ (value : Json) (small : sizeOf value < sizeOf whole) (found : Option α),
      decode.nullable value small = .ok found →
        (∃ a, decode value small = .ok a ∧ found = some a) ∨ value = .null ∧ found = none := by
    intro value small found reads
    unfold Decoder.nullable at reads
    split at reads
    · exact .inr ⟨rfl, (Except.ok.inj reads).symm⟩
    · cases inner : decode value small with
      | error failure =>
        rw [inner] at reads
        cases reads
      | ok a =>
        rw [inner] at reads
        exact .inl ⟨a, rfl, (Except.ok.inj reads).symm⟩
  have close : ∀ (part : Option Json) (found : Option α),
      ((∃ value small, part = some value ∧ decode.nullable value small = .ok found) ∨
        part = none ∧ found = none) →
      (∃ value small a, part = some value ∧ decode value small = .ok a ∧ found = some a) ∨
        part.getD .null = .null ∧ found = none := by
    rintro part found (⟨value, small, there, reads⟩ | ⟨missing, nothing⟩)
    · rcases opened value small found reads with ⟨a, reads, same⟩ | ⟨rfl, nothing⟩
      · exact .inl ⟨value, small, a, there, reads, same⟩
      · exact .inr ⟨by rw [there]; rfl, nothing⟩
    · exact .inr ⟨by rw [missing]; rfl, nothing⟩
  constructor
  · intro fields inFields found reads
    exact close _ _ (either.named reads)
  · intro expected items inItems found reads
    exact close _ _ (either.placed reads)

/-- A record that is read is related to the parts of its value. -/
theorem decode {shape : Shape whole α} {told : Parts → α → Prop} {title : String} {place : Place}
    {value : Json} {fits : sizeOf value ≤ sizeOf whole} {found : α} (finds : shape.Finds 0 told)
    (reads : shape.decode title place value fits = .ok found) :
    told (fun name index => value.part? name index) found := by
  cases value with
  | object fields => exact finds.named (decode_object_eq_ok.mp reads)
  | array items => exact finds.placed (decode_array_eq_ok.mp reads).2
  | _ => exact absurd reads (not_decode_eq_ok rfl rfl)

end Finds

end Shape

namespace Decoder

variable {whole : Json} {α : Type}

/-- A list is read from a sequence, item by item. -/
theorem list_eq_ok {decode : Decoder whole α} {value : Json} {small : sizeOf value < sizeOf whole}
    {found : List α} (reads : list decode value small = .ok found) :
    ∃ items, value = .array items ∧
      List.Forall₂ (fun item a => ∃ small, decode item small = .ok a) items found := by
  have each : ∀ (items : List Json) (inside : ∀ item ∈ items, sizeOf item < sizeOf whole) (found : List α),
      eachOf decode items inside = .ok found →
        List.Forall₂ (fun item a => ∃ small, decode item small = .ok a) items found := by
    intro items
    induction items with
    | nil =>
      intro inside found reads
      cases reads
      exact .nil
    | cons item rest ih =>
      intro inside found reads
      obtain ⟨first, isFirst, reads⟩ := bind_eq_ok.mp reads
      obtain ⟨later, isLater, reads⟩ := bind_eq_ok.mp reads
      cases reads
      exact .cons ⟨_, isFirst⟩ (ih _ later isLater)
  cases value with
  | array items => exact ⟨items, rfl, each items _ found reads⟩
  | _ => cases reads

end Decoder

/-- Behind its tag a tagged value holds the same parts, one place further on. -/
theorem Tagged.part?_content {title : String} {variants : List String} {place : Place} {value : Json}
    {tagged : Tagged value} (taken : Tagged.takeApart title variants place value = .ok tagged)
    (name : String) (index : Nat) :
    tagged.content.part? name index = value.part? name (index + 1) := by
  unfold takeApart at taken
  split at taken
  · split at taken
    · cases taken
    · obtain ⟨variant, -, same⟩ := bind_eq_ok.mp taken
      cases same
      rfl
  · cases taken
  · obtain ⟨variant, -, same⟩ := bind_eq_ok.mp taken
    cases same
    exact List.getElem?_cons_succ.symm
  · cases taken

end SourceOutline
