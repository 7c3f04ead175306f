import Mathlib.Data.List.Forall2
import Mathlib.Data.List.Perm.Basic
import Mathlib.Data.List.Sort
import SourceOutline.Proofs.Json.Fields

/-! Values whose fields stand in another order, and decoders that do not mind. -/

namespace SourceOutline

namespace NameMap

variable {α : Type}

/-- A pair of a new name comes to the others. -/
theorem putEntry_perm {name : String} {entries : List (String × α)} (fresh : name ∉ entries.map Prod.fst) (value : α) :
    (putEntry name value entries).Perm ((name, value) :: entries) := by
  induction entries with
  | nil => exact .refl _
  | cons entry rest ih =>
    obtain ⟨other, fresh⟩ := not_or.mp (mt List.mem_cons.mpr fresh)
    rw [putEntry]
    split
    · exact .refl _
    · exact ((ih fresh).cons entry).trans (.swap _ _ _)

/-- Pairs with different names that are put into a map come to those of the map. -/
theorem entries_foldl_insert_perm {pairs : List (String × α)} {map : NameMap α}
    (distinct : ((map.entries ++ pairs).map Prod.fst).Nodup) :
    (pairs.foldl (fun map pair => map.insert pair.1 pair.2) map).entries.Perm (map.entries ++ pairs) := by
  -- The next pair is new to the map, so it joins the pairs of the map and leaves the list.
  induction pairs generalizing map with
  | nil => simp
  | cons pair rest ih =>
    have turned : (map.entries ++ pair :: rest).Perm (pair :: (map.entries ++ rest)) := List.perm_middle
    have apart := (turned.map Prod.fst).nodup_iff.mp distinct
    obtain ⟨fresh, -⟩ := List.nodup_cons.mp apart
    have put : (map.insert pair.1 pair.2).entries.Perm (pair :: map.entries) :=
      putEntry_perm (fun member => fresh (by simp [member])) pair.2
    have grown := (put.append_right rest).trans turned.symm
    exact (ih ((grown.map Prod.fst).nodup_iff.mpr distinct)).trans grown

/-- The map of pairs with different names has these pairs. -/
theorem entries_ofList_perm {pairs : List (String × α)} (distinct : (pairs.map Prod.fst).Nodup) :
    (ofList pairs).entries.Perm pairs :=
  entries_foldl_insert_perm distinct

/-- Maps with the same pairs are equal, because the pairs are in order. -/
theorem eq_of_perm {first second : NameMap α} (same : first.entries.Perm second.entries) : first = second := by
  have entries : first.entries = second.entries :=
    same.eq_of_pairwise (fun a b _ _ before after => absurd (String.lt_trans before after) (String.lt_irrefl _))
      first.ascending second.ascending
  cases first
  cases second
  congr

/-- The names of a map are told apart. -/
theorem nodup_names (map : NameMap α) : (map.entries.map Prod.fst).Nodup :=
  (List.pairwise_map.mpr map.ascending).imp fun before => by
    rintro rfl
    exact String.lt_irrefl _ before

end NameMap

namespace Json

/-- A value has the contents of another, but the fields of objects in it may stand in another order. -/
inductive Rearranged : Json → Json → Prop where
  /-- What has no parts stays as it is. -/
  | scalar {value : Json} (noFields : value.fields? = none) (noItems : value.items? = none) :
    Rearranged value value
  /-- The items of a sequence keep their places. -/
  | array {items others : List Json} (same : List.Forall₂ Rearranged items others) :
    Rearranged (.array items) (.array others)
  /-- The fields of an object, told apart by their names, may change places. -/
  | object {fields middle others : List (String × Json)} (distinct : (fields.map Prod.fst).Nodup)
    (named : middle.map Prod.fst = fields.map Prod.fst)
    (same : List.Forall₂ Rearranged (fields.map Prod.snd) (middle.map Prod.snd)) (moved : middle.Perm others) :
    Rearranged (.object fields) (.object others)

/-- A value under a name is the one that the object tells under it. -/
theorem get?_of_mem {fields : List (String × Json)} (distinct : (fields.map Prod.fst).Nodup) {name : String}
    {value : Json} (member : (name, value) ∈ fields) : (Json.object fields).get? name = some value := by
  -- Some field of the name is found, and there is only one.
  have found : (fields.find? fun field => field.1 == name).isSome = true :=
    List.find?_isSome.mpr ⟨_, member, beq_self_eq_true name⟩
  obtain ⟨field, isField⟩ := Option.isSome_iff_exists.mp found
  have named : field.1 = name := by simpa using List.find?_some isField
  obtain rfl : field = (name, value) :=
    List.inj_on_of_nodup_map distinct (List.mem_of_find?_eq_some isField) member named
  simp [get?, isField]

/-- A field became another of the same name. -/
def FieldRearranged (field other : String × Json) : Prop := field.1 = other.1 ∧ field.2.Rearranged other.2

/-- Fields with the same names and rearranged values are rearranged one by one. -/
theorem forall₂_fieldRearranged {fields middle : List (String × Json)}
    (named : middle.map Prod.fst = fields.map Prod.fst)
    (same : List.Forall₂ Rearranged (fields.map Prod.snd) (middle.map Prod.snd)) :
    List.Forall₂ FieldRearranged fields middle := by
  induction fields generalizing middle with
  | nil =>
    obtain rfl : middle = [] := by simpa using named
    exact .nil
  | cons field rest ih =>
    cases middle with
    | nil => cases named
    | cons other more =>
      obtain ⟨sameName, named⟩ := List.cons.inj named
      obtain ⟨first, same⟩ := List.forall₂_cons.mp same
      exact .cons ⟨sameName.symm, first⟩ (ih named same)

/-- Each of some fields became one of the others. -/
theorem exists_mem_of_forall₂ {fields middle : List (String × Json)}
    (same : List.Forall₂ FieldRearranged fields middle) {name : String} {value : Json}
    (member : (name, value) ∈ fields) : ∃ part, (name, part) ∈ middle ∧ value.Rearranged part := by
  induction same with
  | nil => cases member
  | @cons field other rest more first _ ih =>
    rcases List.mem_cons.mp member with rfl | later
    · obtain ⟨rfl, alike⟩ := first
      exact ⟨other.2, List.mem_cons_self, alike⟩
    · obtain ⟨part, inside, alike⟩ := ih later
      exact ⟨part, List.mem_cons_of_mem _ inside, alike⟩

/-- Under the name of a field an object tells what the field became. -/
theorem Rearranged.exists_get? {fields others : List (String × Json)}
    (same : Rearranged (.object fields) (.object others)) {name : String} {value : Json}
    (member : (name, value) ∈ fields) :
    ∃ part, (Json.object others).get? name = some part ∧ Rearranged value part := by
  cases same with
  | scalar noFields => cases noFields
  | object distinct named same moved =>
    obtain ⟨part, inside, alike⟩ := exists_mem_of_forall₂ (forall₂_fieldRearranged named same) member
    have apart : (others.map Prod.fst).Nodup := (moved.map Prod.fst).nodup_iff.mp (named ▸ distinct)
    exact ⟨part, get?_of_mem apart (moved.mem_iff.mp inside), alike⟩

/-- The names of an object stay the same. -/
theorem Rearranged.mem_names_iff {fields others : List (String × Json)}
    (same : Rearranged (.object fields) (.object others)) {name : String} :
    name ∈ others.map Prod.fst ↔ name ∈ fields.map Prod.fst := by
  cases same with
  | scalar noFields => cases noFields
  | object distinct named same moved => rw [← (moved.map Prod.fst).mem_iff, named]

end Json

namespace Decoder

variable {whole : Json} {α : Type} {decode : Decoder whole α}

/-- A decoder reads a value wherever its fields stand. -/
def Restores (decode : Decoder whole α) (value : Json) (a : α) : Prop :=
  ∀ told, value.Rearranged told → ∀ small, decode told small = .ok a

/-- What has no parts is decoded as it is. -/
theorem restores_of_scalar {value : Json} {a : α} (noFields : value.fields? = none) (noItems : value.items? = none)
    (decodes : ∀ small, decode value small = .ok a) : decode.Restores value a := by
  intro told same
  cases same with
  | scalar => exact decodes
  | array => cases noItems
  | object => cases noFields

/-- Texts are read back. -/
theorem restores_string (text : String) : (string : Decoder whole String).Restores (.string text) text :=
  restores_of_scalar rfl rfl fun _ => rfl

/-- Paths are read back. -/
theorem restores_path (text : String) : (path : Decoder whole String).Restores (.string text) text :=
  restores_of_scalar rfl rfl fun _ => rfl

/-- Truth values are read back. -/
theorem restores_bool (truth : Bool) : (bool : Decoder whole Bool).Restores (.bool truth) truth :=
  restores_of_scalar rfl rfl fun _ => rfl

/-- Numbers are read back, whatever they are called in messages. -/
theorem restores_natural (n : Nat) (expected : String) :
    (natural expected : Decoder whole Nat).Restores (.nat n) n :=
  restores_of_scalar rfl rfl fun _ => rfl

/-- Absent values are read back. -/
theorem restores_null : decode.nullable.Restores .null none :=
  restores_of_scalar rfl rfl fun _ => rfl

/-- Values that are there are read back where they may be absent. -/
theorem Restores.nullable {value : Json} {a : α} (restores : decode.Restores value a) (shown : value ≠ .null) :
    decode.nullable.Restores value (some a) := by
  intro told same small
  have decoded := restores told same small
  have opened : decode.nullable told small = (decode told small).map some := by
    cases same with
    | scalar => cases value <;> first | rfl | exact absurd rfl shown
    | array => rfl
    | object => rfl
  rw [opened, decoded]
  rfl

/-- Texts that may be absent are read back. -/
theorem restores_stringOrNull {decode : Decoder whole String} (restores : ∀ text, decode.Restores (.string text) text)
    (text : Option String) : decode.nullable.Restores (.stringOrNull text) text := by
  cases text with
  | none => exact restores_null
  | some text => exact (restores text).nullable nofun

/-- Lists are read back when their items are. -/
theorem restores_list {encode : α → Json} {items : List α} (each : ∀ a ∈ items, decode.Restores (encode a) a) :
    (list decode).Restores (.array (items.map encode)) items := by
  have inOrder : ∀ others, List.Forall₂ Json.Rearranged (items.map encode) others →
      ∀ inside, eachOf decode others inside = .ok items := by
    induction items with
    | nil =>
      rintro _ ⟨⟩ inside
      rfl
    | cons a rest ih =>
      obtain ⟨first, later⟩ := List.forall_mem_cons.mp each
      rintro _ (_ | ⟨same, more⟩) inside
      exact bind_eq_ok.mpr ⟨a, first _ same _, bind_eq_ok.mpr ⟨rest, ih later _ more _, rfl⟩⟩
  intro told same small
  cases same with
  | scalar _ noItems => cases noItems
  | array same => exact inOrder _ same _

/-- Lists of texts are read back. -/
theorem restores_strings (texts : List String) :
    (list string : Decoder whole (List String)).Restores (.strings texts) texts :=
  restores_list fun text _ => restores_string text

/-- Maps are read back when their values are, whatever the order of the pairs. -/
theorem restores_map {encode : α → Json} (pairs : NameMap α)
    (each : ∀ entry ∈ pairs.entries, decode.Restores (encode entry.2) entry.2) :
    (map decode).Restores (.object (pairs.entries.map fun entry => (entry.1, encode entry.2))) pairs := by
  let became (entry : String × α) (field : String × Json) : Prop :=
    entry.1 = field.1 ∧ (encode entry.2).Rearranged field.2
  -- Decoded in the order of the fields, the pairs come out as those of the map in another order.
  have inOrder : ∀ others entries, List.Forall₂ became entries others → (∀ entry ∈ entries, entry ∈ pairs.entries) →
      ∀ inside, eachField decode others inside = .ok entries := by
    intro others entries same known
    induction same with
    | nil => exact fun _ => rfl
    | @cons entry field rest more first _ ih =>
      intro inside
      obtain ⟨named, alike⟩ := first
      obtain ⟨isPair, known⟩ := List.forall_mem_cons.mp known
      refine bind_eq_ok.mpr ⟨entry.2, each entry isPair _ alike _, bind_eq_ok.mpr ⟨rest, ih known _, ?_⟩⟩
      rw [← named]
      rfl
  intro told same small
  cases same with
  | scalar noFields => cases noFields
  | @object _ middle others distinct named same moved =>
    have inPlace : List.Forall₂ became pairs.entries middle :=
      List.forall₂_map_left_iff.mp (Json.forall₂_fieldRearranged named same)
    -- The pairs move with the fields that they became.
    obtain ⟨entries, alike, kept⟩ := List.perm_comp_forall₂ moved.symm inPlace.flip
    have decoded := inOrder others entries alike.flip fun entry member => kept.mem_iff.mp member
    have apart : (entries.map Prod.fst).Nodup := (kept.map Prod.fst).nodup_iff.mpr pairs.nodup_names
    have whole : NameMap.ofList entries = pairs :=
      NameMap.eq_of_perm ((NameMap.entries_ofList_perm apart).trans kept)
    show Except.map NameMap.ofList (eachField decode others _) = .ok pairs
    rw [decoded, ← whole]
    rfl

end Decoder

namespace Shape

variable {whole : Json} {α β : Type} {fields : List (String × Json)}

/-- A record is read from an object wherever the fields of it stand. -/
def Restores (shape : Shape whole α) (fields : List (String × Json)) (a : α) : Prop :=
  ∀ others, Json.Rearranged (.object fields) (.object others) → ∀ inside, shape.ofFields others inside = .ok a

/-- A part behind others is read when they are and it is. -/
theorem Restores.seq {left : Shape whole (α → β)} {right : Shape whole α} {f : α → β} {a : α}
    (first : left.Restores fields f) (second : right.Restores fields a) :
    (left <*> right).Restores fields (f a) := fun others same inside =>
  ofFields_seq_eq_ok.mpr ⟨f, a, first others same inside, second others same inside, rfl⟩

/-- The first part is read whatever is made of it. -/
theorem Restores.map {shape : Shape whole α} {a : α} (restores : shape.Restores fields a) (f : α → β) :
    (f <$> shape).Restores fields (f a) := fun others same inside =>
  ofFields_map_eq_ok.mpr ⟨a, restores others same inside, rfl⟩

/-- A field that is written is read back. -/
theorem restores_field {name : String} {value : Json} {a : α} {decode : Decoder whole α} {unnamed : Except Fault α}
    {unplaced : Nat → String → Except DecodeError α} (member : (name, value) ∈ fields)
    (restores : decode.Restores value a) : (field name unnamed unplaced decode).Restores fields a := by
  intro others same inside
  obtain ⟨part, told, alike⟩ := same.exists_get? member
  exact ofFields_field_of_told told (restores part alike)

/-- A field with a default value that is left out has that value. -/
theorem restores_defaulted {name : String} {default : α} {decode : Decoder whole α}
    (missing : name ∉ fields.map Prod.fst) : (defaulted name default decode).Restores fields default := by
  intro others same inside
  refine ofFields_field_of_untold ?_
  have nowhere : ∀ field ∈ others, field.1 ≠ name := by
    rintro field member rfl
    exact missing (same.mem_names_iff.mp (List.mem_map_of_mem member))
  simpa [Json.get?] using nowhere

/-- A record that refuses other fields is read when it has none. -/
theorem Restores.closed {shape : Shape whole α} {a : α} (restores : shape.Restores fields a)
    (known : fields.map Prod.fst ⊆ shape.names) : shape.closed.Restores fields a := by
  intro others same inside
  have all : ∀ field ∈ others, shape.names.contains field.1 = true := by
    intro field member
    exact List.contains_iff_mem.mpr (known (same.mem_names_iff.mp (List.mem_map_of_mem member)))
  -- No field is unknown, because the names are those that were written.
  have none : firstUnknown shape.names others = none := by
    clear same inside
    rw [firstUnknown]
    induction others with
    | nil => rfl
    | cons field rest ih =>
      obtain ⟨first, later⟩ := List.forall_mem_cons.mp all
      rw [List.foldl_cons, if_pos first]
      exact ih later
  rw [Shape.closed]
  simp only [none]
  exact restores others same inside

/-- A record is decoded from an object wherever the fields of it stand. -/
theorem Restores.decode {shape : Shape whole α} {a : α} (restores : shape.Restores fields a) {told : Json}
    (same : Json.Rearranged (.object fields) told) (title : String) (place : Place)
    (fits : sizeOf told ≤ sizeOf whole) : shape.decode title place told fits = .ok a := by
  cases same with
  | scalar noFields => cases noFields
  | object distinct named alike moved =>
    exact decode_object_eq_ok.mpr (restores _ (.object distinct named alike moved) _)

end Shape

end SourceOutline
