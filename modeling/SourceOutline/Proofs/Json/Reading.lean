import SourceOutline.Proofs.Json.Rearranged
import SourceOutline.Proofs.Json.Scalars

/-! Values that are written as text and read back from it. -/

namespace SourceOutline.Json

/-- A value that can be written and read back: its numbers fit and are not negative, the fields of an object are
told apart by their names, and no more brackets than so many are open at once. -/
inductive IsPlain : Nat → Json → Prop where
  /-- The value that stands for an absent one. -/
  | null {depth : Nat} : IsPlain depth .null
  /-- A truth value. -/
  | bool {depth : Nat} (truth : Bool) : IsPlain depth (.bool truth)
  /-- A number. -/
  | nat {depth n : Nat} (fits : n ≤ digitLimit) : IsPlain depth (.nat n)
  /-- A text. -/
  | string {depth : Nat} (text : String) : IsPlain depth (.string text)
  /-- A sequence. -/
  | array {depth : Nat} {items : List Json} (each : ∀ item ∈ items, IsPlain depth item) :
    IsPlain (depth + 1) (.array items)
  /-- An object. -/
  | object {depth : Nat} {fields : List (String × Json)} (distinct : (fields.map Prod.fst).Nodup)
    (each : ∀ field ∈ fields, IsPlain depth field.2) : IsPlain (depth + 1) (.object fields)

/-- From some progress a text leads to another, token by token. -/
inductive Leads : Progress → List Char → Progress → Prop where
  /-- The text is at its end. -/
  | done (progress : Progress) : Leads progress [] progress
  /-- A blank changes nothing. -/
  | blank {progress final : Progress} {c : Char} {rest : List Char} (space : isSpace c = true)
    (later : Leads progress rest final) : Leads progress (c :: rest) final
  /-- A token is read and takes effect. -/
  | token {progress next final : Progress} {c : Char} {cs rest : List Char} {first : Token}
    (visible : isSpace c = false) (read : Json.token (c :: cs) = some (first, rest)) (shorter : rest.length ≤ cs.length)
    (step : progress.step first = some next) (later : Leads next rest final) : Leads progress (c :: cs) final

/-- A text that leads to some progress is taken apart into tokens that have this effect. -/
theorem Leads.exists_tokensFrom {progress final : Progress} {cs : List Char} (leads : Leads progress cs final)
    (found : List Token) {fuel : Nat} (enough : cs.length ≤ fuel) :
    ∃ tokens, tokensFrom found fuel cs = some (found.reverse ++ tokens) ∧
      tokens.foldlM Progress.step progress = some final := by
  -- Every step uses up a character, so the fuel lasts as long as the text.
  induction leads generalizing found fuel with
  | done progress => exact ⟨[], by cases fuel <;> simp [tokensFrom], rfl⟩
  | blank space later ih =>
    cases fuel with
    | zero => cases enough
    | succ fuel =>
      rw [tokensFrom, if_pos space]
      exact ih found (Nat.le_of_succ_le_succ enough)
  | @token progress next final c cs rest first visible read shorter step later ih =>
    cases fuel with
    | zero => cases enough
    | succ fuel =>
      have less : rest.length ≤ fuel := Nat.le_trans shorter (Nat.le_of_succ_le_succ enough)
      obtain ⟨tokens, told, effect⟩ := ih (first :: found) less
      refine ⟨first :: tokens, ?_, by simp [step, effect]⟩
      rw [tokensFrom, if_neg (by simp [visible]), read, Option.bind_some, told]
      simp

/-- A text that leads from the start to a finish is read. -/
theorem Leads.read {cs : List Char} {told : Json} (leads : Leads ⟨[], .value, .null⟩ cs ⟨[], .finish, told⟩) :
    read cs = some told := by
  obtain ⟨tokens, told, effect⟩ := leads.exists_tokensFrom [] (Nat.le_refl _)
  simp only [Json.read, Json.tokens, told, List.reverse_nil, List.nil_append, Option.bind_eq_bind, Option.bind_some,
    effect]

/-- Blanks change nothing. -/
theorem Leads.blanks {progress final : Progress} {blanks rest : List Char} (spaces : ∀ c ∈ blanks, isSpace c = true)
    (leads : Leads progress rest final) : Leads progress (blanks ++ rest) final := by
  induction blanks with
  | nil => exact leads
  | cons c more ih =>
    obtain ⟨space, spaces⟩ := List.forall_mem_cons.mp spaces
    exact .blank space (ih spaces)

/-- A token that is a single character takes effect. -/
theorem Leads.mark {progress next final : Progress} {rest : List Char} {c : Char}
    (leads : Leads next rest final) (mark : Token) (visible : isSpace c = false)
    (read : Json.token (c :: rest) = some (mark, rest)) (step : progress.step mark = some next) :
    Leads progress (c :: rest) final :=
  .token visible read (Nat.le_refl _) step leads

/-- A token of some characters takes effect. -/
theorem Leads.piece {progress next final : Progress} {piece rest : List Char} {first : Token}
    (leads : Leads next rest final) (visible : ∀ c, piece.head? = some c → isSpace c = false) (shown : piece ≠ [])
    (read : Json.token (piece ++ rest) = some (first, rest)) (step : progress.step first = some next) :
    Leads progress (piece ++ rest) final := by
  obtain ⟨c, more, rfl⟩ := List.exists_cons_of_ne_nil shown
  exact .token (visible c rfl) read (by simp) step leads

/-- A text writes a value: read where a value may come, it completes the value, up to the order of fields. -/
def Writes (depth : Nat) (value : Json) (text : List Char) : Prop :=
  ∃ told, value.Rearranged told ∧
    ∀ frames expecting, expecting = .value ∨ expecting = .firstItem → frames.length + depth ≤ deepest →
      ∀ rest final, Stops rest → Leads (.complete frames told) rest final →
        Leads ⟨frames, expecting, .null⟩ (text ++ rest) final

/-- A text that writes a value is read as that value, up to the order of fields. -/
theorem Writes.exists_read {depth : Nat} {value : Json} {text : List Char} (writes : Writes depth value text)
    (shallow : depth ≤ deepest) : ∃ told, value.Rearranged told ∧ read text = some told := by
  obtain ⟨told, same, leads⟩ := writes
  have whole := leads [] .value (.inl rfl) (by simpa using shallow) [] _ nofun (.done _)
  rw [List.append_nil] at whole
  exact ⟨told, same, whole.read⟩

/-- A value without parts is written by the token that it is read from. -/
theorem writes_of_token {depth : Nat} {value : Json} {text : List Char} {first : Token}
    (noFields : value.fields? = none) (noItems : value.items? = none)
    (visible : ∀ c, text.head? = some c → isSpace c = false) (shown : text ≠ [])
    (read : ∀ rest, Stops rest → token (text ++ rest) = some (first, rest))
    (starts : ∀ frames, Progress.start frames first = some (.complete frames value)) (opens : first ≠ .closeArray) :
    Writes depth value text := by
  refine ⟨value, .scalar noFields noItems, ?_⟩
  rintro frames expecting allowed - rest final stops leads
  refine leads.piece visible shown (read rest stops) ?_
  rcases allowed with rfl | rfl
  · exact starts frames
  · cases first <;> first | exact absurd rfl opens | exact starts frames

/-- Parts between two brackets, with blanks in front of each and behind the last. -/
def enclosed (opening closing : Char) (blanks ending : List Char) : List (List Char) → List Char
  | [] => [opening, closing]
  | first :: rest =>
    opening :: (blanks ++ (first ++ (rest.flatMap (fun text => ',' :: (blanks ++ text)) ++ (ending ++ [closing]))))

section Enclosed

variable {depth : Nat} {blanks ending : List Char} (spaces : ∀ c ∈ blanks, isSpace c = true)
  (spacesBehind : ∀ c ∈ ending, isSpace c = true)

/-- Blanks end a number, as what follows them does. -/
theorem stops_blanks (spaces : ∀ c ∈ blanks, isSpace c = true) {rest : List Char} (stops : Stops rest) :
    Stops (blanks ++ rest) := by
  cases blanks with
  | nil => exact stops
  | cons c more =>
    rintro _ ⟨⟩
    have space := spaces c List.mem_cons_self
    simp only [isSpace, Bool.or_eq_true, beq_iff_eq] at space
    rcases space with ((rfl | rfl) | rfl) | rfl <;> decide

include spacesBehind in
/-- Whether parts follow or the bracket is closed, a number is ended. -/
theorem stops_laterParts {closing : Char} (closes : closing = ']' ∨ closing = '\x7d') (texts : List (List Char))
    (rest : List Char) :
    Stops (texts.flatMap (fun text => ',' :: (blanks ++ text)) ++ (ending ++ closing :: rest)) := by
  cases texts with
  | nil =>
    refine stops_blanks spacesBehind ?_
    rintro _ ⟨⟩
    rcases closes with rfl | rfl <;> decide
  | cons text more =>
    rintro _ ⟨⟩
    decide

include spaces spacesBehind in
/-- Behind an item the others are read one after the other up to the closing bracket. -/
theorem exists_leads_laterItems {items : List Json} {texts : List (List Char)}
    (each : List.Forall₂ (Writes depth) items texts) :
    ∃ tolds, List.Forall₂ Rearranged items tolds ∧
      ∀ done outer rest final, outer.length + 1 + depth ≤ deepest →
        Leads (.complete outer (.array (done.reverse ++ tolds))) rest final →
          Leads ⟨.items done :: outer, .more, .null⟩
            (texts.flatMap (fun text => ',' :: (blanks ++ text)) ++ (ending ++ ']' :: rest)) final := by
  induction each with
  | nil =>
    refine ⟨[], .nil, fun done outer rest final _ leads => ?_⟩
    rw [List.append_nil] at leads
    rw [List.flatMap_nil, List.nil_append]
    exact (leads.mark .closeArray rfl rfl rfl).blanks spacesBehind
  | @cons item text items texts writes _ ih =>
    -- A comma, the blanks and the item come in front of what is read later.
    obtain ⟨told, same, leadsItem⟩ := writes
    obtain ⟨tolds, sames, leadsLater⟩ := ih
    refine ⟨told :: tolds, .cons same sames, fun done outer rest final shallow leads => ?_⟩
    rw [List.flatMap_cons, List.append_assoc, List.cons_append, List.append_assoc]
    have later := leadsLater (told :: done) outer rest final shallow (by simpa using leads)
    have here := leadsItem (.items done :: outer) .value (.inl rfl) shallow _ _
      (stops_laterParts spacesBehind (.inl rfl) texts rest) later
    exact (here.blanks spaces).mark .comma rfl rfl rfl

include spaces spacesBehind in
/-- A sequence is written by what its items are written by. -/
theorem writes_array {items : List Json} {texts : List (List Char)} (each : List.Forall₂ (Writes depth) items texts) :
    Writes (depth + 1) (.array items) (enclosed '[' ']' blanks ending texts) := by
  -- The first item stands behind the bracket and the others each behind a comma.
  cases each with
  | nil =>
    refine ⟨.array [], .array .nil, ?_⟩
    rintro frames expecting allowed shallow rest final - leads
    have opened : Progress.opened frames (.items []) .firstItem = some ⟨.items [] :: frames, .firstItem, .null⟩ :=
      if_pos (by omega)
    have closed : Leads ⟨.items [] :: frames, .firstItem, .null⟩ (']' :: rest) final := leads.mark .closeArray rfl rfl rfl
    rcases allowed with rfl | rfl <;> exact closed.mark .openArray rfl rfl opened
  | @cons item text items texts writes each =>
    obtain ⟨told, same, leadsItem⟩ := writes
    obtain ⟨tolds, sames, leadsLater⟩ := exists_leads_laterItems spaces spacesBehind each
    refine ⟨.array (told :: tolds), .array (.cons same sames), ?_⟩
    rintro frames expecting allowed shallow rest final - leads
    have opened : Progress.opened frames (.items []) .firstItem = some ⟨.items [] :: frames, .firstItem, .null⟩ :=
      if_pos (by omega)
    have later := leadsLater [told] frames rest final (by omega) leads
    have here := leadsItem (.items [] :: frames) .firstItem (.inr rfl) (by simp; omega) _ _
      (stops_laterParts spacesBehind (.inl rfl) texts rest) later
    simp only [enclosed, List.cons_append, List.append_assoc, List.nil_append]
    rcases allowed with rfl | rfl <;> exact (here.blanks spaces).mark .openArray rfl rfl opened

/-- A text writes a field: its name, and its value behind a colon and perhaps some blanks. -/
def WritesField (depth : Nat) (gap : List Char) (field : String × Json) (text : List Char) : Prop :=
  ∃ value, text = (quote field.1).toList ++ ':' :: (gap ++ value) ∧ Writes depth field.2 value

/-- A field that is written is read into the innermost object, in which a name may come. -/
theorem WritesField.exists_leads {gap text : List Char} {field : String × Json} (writes : WritesField depth gap field text)
    (spacesBetween : ∀ c ∈ gap, isSpace c = true) :
    ∃ told, FieldRearranged field told ∧
      ∀ done name outer expecting, expecting = .name ∨ expecting = .firstName → outer.length + 1 + depth ≤ deepest →
        ∀ rest final, Stops rest → Leads ⟨.fields (told :: done) field.1 :: outer, .more, .null⟩ rest final →
          Leads ⟨.fields done name :: outer, expecting, .null⟩ (text ++ rest) final := by
  obtain ⟨value, rfl, part, same, leadsValue⟩ := writes
  refine ⟨(field.1, part), ⟨rfl, same⟩, ?_⟩
  rintro done name outer expecting allowed shallow rest final stops leads
  -- Read from the end: the value, the colon with the blanks behind it, the name.
  have here := leadsValue (.fields done field.1 :: outer) .value (.inl rfl) shallow rest final stops leads
  have behind : Leads ⟨.fields done field.1 :: outer, .colon, .null⟩ (':' :: (gap ++ (value ++ rest))) final :=
    (here.blanks spacesBetween).mark .colon rfl rfl rfl
  rw [List.append_assoc, List.cons_append, List.append_assoc]
  refine behind.piece ?_ (by simp [toList_quote]) (token_quote field.1 _) ?_
  · rw [toList_quote]
    rintro _ ⟨⟩
    rfl
  · rcases allowed with rfl | rfl <;> rfl

include spaces spacesBehind in
/-- Behind a field the others are read one after the other up to the closing brace. -/
theorem exists_leads_laterFields {gap : List Char} (spacesBetween : ∀ c ∈ gap, isSpace c = true)
    {fields : List (String × Json)} {texts : List (List Char)}
    (each : List.Forall₂ (WritesField depth gap) fields texts) :
    ∃ tolds, List.Forall₂ FieldRearranged fields tolds ∧
      ∀ done name outer rest final, outer.length + 1 + depth ≤ deepest →
        Leads (.complete outer (.object (NameMap.ofList (done.reverse ++ tolds)).entries)) rest final →
          Leads ⟨.fields done name :: outer, .more, .null⟩
            (texts.flatMap (fun text => ',' :: (blanks ++ text)) ++ (ending ++ '\x7d' :: rest)) final := by
  induction each with
  | nil =>
    refine ⟨[], .nil, fun done name outer rest final _ leads => ?_⟩
    rw [List.append_nil] at leads
    rw [List.flatMap_nil, List.nil_append]
    exact (leads.mark .closeObject rfl rfl rfl).blanks spacesBehind
  | @cons field text fields texts writes _ ih =>
    obtain ⟨told, same, leadsField⟩ := writes.exists_leads spacesBetween
    obtain ⟨tolds, sames, leadsLater⟩ := ih
    refine ⟨told :: tolds, .cons same sames, fun done name outer rest final shallow leads => ?_⟩
    rw [List.flatMap_cons, List.append_assoc, List.cons_append, List.append_assoc]
    have later := leadsLater (told :: done) field.1 outer rest final shallow (by simpa using leads)
    have here := leadsField done name outer .name (.inl rfl) shallow _ _
      (stops_laterParts spacesBehind (.inr rfl) texts rest) later
    exact (here.blanks spaces).mark .comma rfl rfl rfl

/-- Fields that became others under their names are those of a rearranged object. -/
theorem rearranged_object {fields tolds : List (String × Json)} (distinct : (fields.map Prod.fst).Nodup)
    (same : List.Forall₂ FieldRearranged fields tolds) :
    Rearranged (.object fields) (.object (NameMap.ofList tolds).entries) := by
  have named : tolds.map Prod.fst = fields.map Prod.fst := by
    clear distinct
    induction same with
    | nil => rfl
    | cons first _ ih => rw [List.map_cons, List.map_cons, first.1, ih]
  have values : List.Forall₂ Rearranged (fields.map Prod.snd) (tolds.map Prod.snd) :=
    List.forall₂_map_left_iff.mpr (List.forall₂_map_right_iff.mpr (same.imp fun _ _ field => field.2))
  exact .object distinct named values (NameMap.entries_ofList_perm (named ▸ distinct)).symm

include spaces spacesBehind in
/-- An object is written by what its fields are written by. -/
theorem writes_object {gap : List Char} (spacesBetween : ∀ c ∈ gap, isSpace c = true) {fields : List (String × Json)}
    (distinct : (fields.map Prod.fst).Nodup) {texts : List (List Char)}
    (each : List.Forall₂ (WritesField depth gap) fields texts) :
    Writes (depth + 1) (.object fields) (enclosed '\x7b' '\x7d' blanks ending texts) := by
  cases each with
  | nil =>
    refine ⟨_, rearranged_object distinct .nil, ?_⟩
    rintro frames expecting allowed shallow rest final - leads
    have opened : Progress.opened frames (.fields [] "") .firstName = some ⟨.fields [] "" :: frames, .firstName, .null⟩ :=
      if_pos (by omega)
    have closed : Leads ⟨.fields [] "" :: frames, .firstName, .null⟩ ('\x7d' :: rest) final :=
      leads.mark .closeObject rfl rfl rfl
    rcases allowed with rfl | rfl <;> exact closed.mark .openObject rfl rfl opened
  | @cons field text fields texts writes each =>
    obtain ⟨told, same, leadsField⟩ := writes.exists_leads spacesBetween
    obtain ⟨tolds, sames, leadsLater⟩ := exists_leads_laterFields spaces spacesBehind spacesBetween each
    refine ⟨_, rearranged_object distinct (.cons same sames), ?_⟩
    rintro frames expecting allowed shallow rest final - leads
    have opened : Progress.opened frames (.fields [] "") .firstName = some ⟨.fields [] "" :: frames, .firstName, .null⟩ :=
      if_pos (by omega)
    have later := leadsLater [told] field.1 frames rest final (by omega) leads
    have here := leadsField [] "" frames .firstName (.inr rfl) (by omega) _ _
      (stops_laterParts spacesBehind (.inr rfl) texts rest) later
    simp only [enclosed, List.cons_append, List.append_assoc, List.nil_append]
    rcases allowed with rfl | rfl <;> exact (here.blanks spaces).mark .openObject rfl rfl opened

end Enclosed

/-- Texts joined by a comma and some blanks. -/
theorem toList_intercalate_cons (separator first : String) (rest : List String) :
    (String.intercalate separator (first :: rest)).toList =
      first.toList ++ (rest.map String.toList).flatMap fun text => separator.toList ++ text := by
  rw [String.toList_intercalate, List.map_cons]
  induction rest generalizing first with
  | nil => simp [List.intercalate]
  | cons next more ih =>
    rw [List.map_cons, List.intercalate_cons_cons, ih, List.flatMap_cons]
    simp

/-- Compact items are written one by one. -/
theorem compactItems_eq_map (items : List Json) : compactItems items = items.map compact := by
  induction items with
  | nil => rfl
  | cons item rest ih => rw [compactItems, ih, List.map_cons]

/-- Compact fields are written one by one. -/
theorem compactFields_eq_map (fields : List (String × Json)) :
    compactFields fields = fields.map fun field => quote field.1 ++ ":" ++ compact field.2 := by
  induction fields with
  | nil => rfl
  | cons field rest ih => rw [compactFields, ih, List.map_cons]

/-- Indented items are written one by one. -/
theorem prettyItems_eq_map (level : Nat) (items : List Json) :
    prettyItems level items = items.map (prettyAt (level + 1)) := by
  induction items with
  | nil => rfl
  | cons item rest ih => rw [prettyItems, ih, List.map_cons]

/-- Indented fields are written one by one. -/
theorem prettyFields_eq_map (level : Nat) (fields : List (String × Json)) :
    prettyFields level fields = fields.map fun field => quote field.1 ++ ": " ++ prettyAt (level + 1) field.2 := by
  induction fields with
  | nil => rfl
  | cons field rest ih => rw [prettyFields, ih, List.map_cons]

/-- Parts that are joined compactly between brackets have no blanks around them. -/
theorem toList_compact_enclosed (opening closing : Char) (parts : List String) :
    (String.singleton opening ++ String.intercalate "," parts ++ String.singleton closing).toList =
      enclosed opening closing [] [] (parts.map String.toList) := by
  cases parts with
  | nil => simp [enclosed, String.intercalate]
  | cons first rest =>
    rw [String.toList_append, String.toList_append, toList_intercalate_cons]
    simp [enclosed]

/-- Parts on lines of their own have line breaks and indentation around them. -/
theorem toList_indented (level : Nat) (opening closing : Char) (parts : List String) :
    (indented level (String.singleton opening) (String.singleton closing) parts).toList =
      enclosed opening closing (lineAt (level + 1)).toList (lineAt level).toList (parts.map String.toList) := by
  cases parts with
  | nil => simp [enclosed, indented]
  | cons first rest =>
    simp only [indented, List.isEmpty_cons, Bool.false_eq_true, if_false, String.toList_append, toList_intercalate_cons]
    simp [enclosed]

/-- A line break and an indentation are blanks. -/
theorem isSpace_of_mem_lineAt (level : Nat) : ∀ c ∈ (lineAt level).toList, isSpace c = true := by
  intro c member
  rw [lineAt, String.toList_ofList] at member
  rcases List.mem_cons.mp member with rfl | blank
  · rfl
  · rw [List.eq_of_mem_replicate blank]
    rfl

namespace IsPlain

variable {depth : Nat} {value : Json}

/-- Numbers are written by their digits. -/
theorem writes_nat {n : Nat} (fits : n ≤ digitLimit) : Writes depth (.nat n) (writeScalar (.nat n)).toList := by
  have spelled : (writeScalar (.nat n)).toList = Nat.toDigits 10 n := Nat.toList_repr
  refine writes_of_token rfl rfl ?_ (spelled ▸ Nat.toDigits_ne_nil) (fun rest stops => token_nat fits stops)
    (fun _ => rfl) nofun
  intro c first
  rw [spelled] at first
  have digit : c.isDigit = true := Nat.isDigit_of_mem_toDigits (by decide) (by decide) (List.mem_of_mem_head? first)
  have other : ∀ blank : Char, blank.isDigit = false → c ≠ blank := by
    rintro blank noDigit rfl
    exact absurd digit (by simp [noDigit])
  simp [isSpace, other]

/-- Texts are written between quotes. -/
theorem writes_string (text : String) : Writes depth (.string text) (quote text).toList := by
  refine writes_of_token rfl rfl ?_ (by simp [toList_quote]) (fun rest _ => token_quote text rest) (fun _ => rfl) nofun
  rw [toList_quote]
  rintro _ ⟨⟩
  rfl

/-- Words are written as they are. -/
theorem writes_word (word : value = .null ∨ ∃ truth, value = .bool truth) :
    Writes depth value (writeScalar value).toList := by
  have read := fun rest (_ : Stops rest) => token_word value rest word
  rcases word with rfl | ⟨_ | _, rfl⟩ <;>
    exact writes_of_token rfl rfl (by rintro _ ⟨⟩; rfl) (by decide) read (fun _ => rfl) nofun

/-- A plain value is written compactly. -/
theorem writes_compact (plain : IsPlain depth value) : Writes depth value (compact value).toList := by
  induction plain with
  | null => exact writes_word (.inl rfl)
  | bool truth => exact writes_word (.inr ⟨truth, rfl⟩)
  | nat fits => exact writes_nat fits
  | string text => exact writes_string text
  | @array depth items _ ih =>
    have spelled : (compact (.array items)).toList =
        enclosed '[' ']' [] [] ((compactItems items).map String.toList) := toList_compact_enclosed '[' ']' _
    rw [spelled, compactItems_eq_map, List.map_map]
    exact writes_array (List.forall_mem_nil _) (List.forall_mem_nil _)
      (List.forall₂_map_right_iff.mpr (List.forall₂_same.mpr ih))
  | @object depth fields distinct _ ih =>
    have spelled : (compact (.object fields)).toList =
        enclosed '\x7b' '\x7d' [] [] ((compactFields fields).map String.toList) := toList_compact_enclosed '\x7b' '\x7d' _
    rw [spelled, compactFields_eq_map, List.map_map]
    refine writes_object (List.forall_mem_nil _) (List.forall_mem_nil _) (List.forall_mem_nil _) distinct
      (List.forall₂_map_right_iff.mpr (List.forall₂_same.mpr fun field member => ⟨_, ?_, ih field member⟩))
    simp

/-- A plain value is written with one part per line. -/
theorem writes_prettyAt (plain : IsPlain depth value) (level : Nat) : Writes depth value (prettyAt level value).toList := by
  induction plain generalizing level with
  | null => exact writes_word (.inl rfl)
  | bool truth => exact writes_word (.inr ⟨truth, rfl⟩)
  | nat fits => exact writes_nat fits
  | string text => exact writes_string text
  | @array depth items _ ih =>
    have spelled : (prettyAt level (.array items)).toList = enclosed '[' ']' (lineAt (level + 1)).toList
        (lineAt level).toList ((prettyItems level items).map String.toList) := toList_indented level '[' ']' _
    rw [spelled, prettyItems_eq_map, List.map_map]
    exact writes_array (isSpace_of_mem_lineAt _) (isSpace_of_mem_lineAt _)
      (List.forall₂_map_right_iff.mpr (List.forall₂_same.mpr fun item member => ih item member (level + 1)))
  | @object depth fields distinct _ ih =>
    have spelled : (prettyAt level (.object fields)).toList = enclosed '\x7b' '\x7d' (lineAt (level + 1)).toList
        (lineAt level).toList ((prettyFields level fields).map String.toList) := toList_indented level '\x7b' '\x7d' _
    have oneBlank : ∀ c ∈ [' '], isSpace c = true := List.forall_mem_singleton.mpr rfl
    rw [spelled, prettyFields_eq_map, List.map_map]
    refine writes_object (isSpace_of_mem_lineAt _) (isSpace_of_mem_lineAt _) oneBlank distinct
      (List.forall₂_map_right_iff.mpr (List.forall₂_same.mpr fun field member => ⟨_, ?_, ih field member (level + 1)⟩))
    simp

/-- A plain value is the same value, whatever the order of its fields. -/
theorem rearranged (plain : IsPlain depth value) : value.Rearranged value := by
  induction plain with
  | array _ ih => exact .array (List.forall₂_same.mpr ih)
  | @object depth fields distinct _ ih =>
    refine .object distinct rfl (List.forall₂_same.mpr fun part member => ?_) (.refl _)
    obtain ⟨field, isField, rfl⟩ := List.mem_map.mp member
    exact ih field isField
  | _ => exact .scalar rfl rfl

/-- What a plain value is written as is read as that value, up to the order of fields. -/
theorem exists_read (plain : IsPlain depth value) (shallow : depth ≤ deepest) {text : String}
    (written : text = value.compact ∨ text = value.pretty) :
    ∃ told, value.Rearranged told ∧ read text.toList = some told := by
  rcases written with rfl | rfl
  · exact plain.writes_compact.exists_read shallow
  · exact (plain.writes_prettyAt 0).exists_read shallow

end IsPlain

end SourceOutline.Json
