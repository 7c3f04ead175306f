import SourceOutline.Proofs.Json.Agreement
import SourceOutline.Script.Decode

/-! Classes as values without some of their members, and what is read from them. -/

namespace SourceOutline.Script

variable {whole other : Json}

section Parts

/-- A place is read alike inside any value. -/
theorem Position.decode_agree (place : Place) :
    (Position.decode place : Decoder whole Position).Agree (· = ·) (· = ·)
      (Position.decode place : Decoder other Position) := by
  intro left right small small' same
  subst same
  unfold Position.decode
  exact Shape.Agree.decode
    (.seqSame (.mapSame (.required Decoder.count_agree)) (.defaulted rfl Decoder.count_agree))
    _ _ (.refl _ _) _ _

/-- A stretch is read alike inside any value. -/
theorem Span.decode_agree (place : Place) :
    (Span.decode place : Decoder whole Span).Agree (· = ·) (· = ·)
      (Span.decode place : Decoder other Span) := by
  intro left right small small' same
  subst same
  unfold Span.decode
  exact Shape.Agree.decode
    (.seqSame (.mapSame (.required (Position.decode_agree place)))
      (.required (Position.decode_agree place)))
    _ _ (.refl _ _) _ _

/-- A loosely typed node is read alike inside any value. -/
theorem Node.part_agree (place : Place) :
    (Node.part place : Decoder whole Node).Agree (· = ·) (· = ·)
      (Node.part place : Decoder other Node) :=
  Decoder.agree_of_eq fun _ _ _ => rfl

/-- A type is read alike inside any value. -/
theorem TypeNote.decode_agree (place : Place) :
    (TypeNote.decode place : Decoder whole TypeNote).Agree (· = ·) (· = ·)
      (TypeNote.decode place : Decoder other TypeNote) := by
  intro left right small small' same
  subst same
  unfold TypeNote.decode
  exact Shape.Agree.decode
    (.seqSame (.mapSame (.optionalSame (fun _ _ => id) (Span.decode_agree place)))
      (.optionalSame (fun _ _ => id) (Node.part_agree place)))
    _ _ (.refl _ _) _ _

/-- A bound name is read alike inside any value. -/
theorem Identifier.decode_agree (place : Place) :
    (Identifier.decode place : Decoder whole Identifier).Agree (· = ·) (· = ·)
      (Identifier.decode place : Decoder other Identifier) := by
  intro left right small small' same
  subst same
  unfold Identifier.decode Identifier.shape
  exact Shape.Agree.decode
    (.seqSame (.mapSame (.required Decoder.string_agree))
      (.optionalSame (fun _ _ => id) (TypeNote.decode_agree place)))
    _ _ (.refl _ _) _ _

/-- An exported name is read alike inside any value. -/
theorem decodeExportName_agree :
    (decodeExportName : Decoder whole (Option Node)).Agree (· = ·) (· = ·)
      (decodeExportName : Decoder other (Option Node)) := by
  intro left right small small' same
  subst same
  unfold decodeExportName
  exact Shape.Agree.decode (.optionalSame (fun _ _ => id) (Node.part_agree .inner)) _ _ (.refl _ _) _ _

end Parts

/-! ## Members left out of the classes of a tree -/

/-- A sequence without the items that are not kept. -/
def keepItems (keep : Json → Bool) : Json → Json
  | .array items => .array (items.filter keep)
  | other => other

/-- A class as a value, without the members that are not kept. -/
def keepInClass (keep : Json → Bool) (value : Json) : Json :=
  -- The members are the first part of the body, which is the third part behind the tag.
  value.atPart "body" 3 fun body _ => body.atPart "body" 0 fun items _ => keepItems keep items

/-- The kind that a tagged value claims to be. -/
def kindOf (title : String) (variants : List String) (place : Place) (value : Json) :
    Option String :=
  match Tagged.takeApart title variants place value with
  | .ok tagged => tagged.variant
  | .error _ => none

/-- What an export exports by default, without the class members that are not kept. -/
def keepInDefault (keep : Json → Bool) (value : Json) : Json :=
  if kindOf "DefaultExport" DefaultExport.variants .inner value = some "ClassDeclaration" then
    keepInClass keep value
  else value

/-- A statement as a value, without the class members that are not kept. -/
def keepInStatement (keep : Json → Bool) (place : Place) (value : Json) : Json :=
  -- A class stands on its own or is the declaration of an export.
  match kindOf "Statement" Statement.variants place value with
  | some "ClassDeclaration" => keepInClass keep value
  | some "ExportNamedDeclaration" =>
    value.atPart "declaration" 1 fun inner _small => keepInStatement keep .inner inner
  | some "ExportDefaultDeclaration" =>
    value.atPart "declaration" 1 fun inner _ => keepInDefault keep inner
  | _ => value
termination_by sizeOf value
decreasing_by exact _small

/-- A class without the members that are not kept. -/
def Class.keepMembers (keep : Json → Bool) (definition : Class) : Class :=
  { definition with members := definition.members.filter keep }

/-- A default export without the class members that are not kept. -/
def DefaultExport.keepMembers (keep : Json → Bool) : DefaultExport → DefaultExport
  | .classDef definition => .classDef (definition.keepMembers keep)
  | declaration => declaration

/-- A statement without the class members that are not kept. -/
def Statement.keepMembers (keep : Json → Bool) : Statement → Statement
  | .classDef definition => .classDef (definition.keepMembers keep)
  | .exportNamed (some inner) names span =>
    .exportNamed (some (inner.keepMembers keep)) names span
  | .exportDefault declaration span => .exportDefault (declaration.keepMembers keep) span
  | statement => statement

variable {keep : Json → Bool}

/-- The items of a sequence are those that are kept, and any other value is refused as it was. -/
theorem list_any_agree {left right : Json} (differ : right = keepItems keep left)
    (small : sizeOf left < sizeOf whole) (small' : sizeOf right < sizeOf other) :
    Agree (fun left right => right = left.filter keep)
      ((.list .any : Decoder whole (List Json)) left small)
      ((.list .any : Decoder other (List Json)) right small') := by
  subst differ
  cases left with
  | array items =>
    simp only [Decoder.list, keepItems, Decoder.eachOf_any]
    exact rfl
  | _ => exact rfl

/-- The members of a class body are those that are kept. -/
theorem decodeMembers_agree :
    (decodeMembers : Decoder whole (List Json)).Agree
      (fun left right => right = left.atPart "body" 0 fun items _ => keepItems keep items)
      (fun left right => right = left.filter keep)
      (decodeMembers : Decoder other (List Json)) := by
  intro left right small small' differ
  subst differ
  have parts : PartsAgree (.only "body" fun left right => right = keepItems keep left) ["body"] left
      (left.atPart "body" 0 fun items _ => keepItems keep items) :=
    Json.atPart_agree left _ (fun _ _ => rfl) (by decide) rfl
  unfold decodeMembers
  refine Shape.Agree.decode (.defaulted ?_ fun items items' small small' differ => ?_) _ _ parts _ _
  · rfl
  · have cut := Change.only_self.mp differ
    exact list_any_agree cut small small'

/-- How a class as a value differs from the one without the members that are not kept. -/
def classChange (keep : Json → Bool) : Change :=
  .only "body" fun left right => right = left.atPart "body" 0 fun items _ => keepItems keep items

/-- A class without the members that are not kept differs in its body only. -/
theorem keepInClass_agree (keep : Json → Bool) (value : Json) :
    PartsAgree (classChange keep) ["type", "id", "superClass", "body", "loc"] value
      (keepInClass keep value) :=
  Json.atPart_agree value _ (fun _ _ => rfl) (by decide) rfl

/-- A class is read without the members that are not kept. -/
theorem class_agree {first : Tagged whole} {second : Tagged other}
    (differ : PartsAgree (classChange keep) ["id", "superClass", "body", "loc"] first.content
      second.content) :
    Agree (fun left right => right = left.keepMembers keep) (Tagged.class first)
      (Tagged.class second) := by
  have unchanged : ∀ name, name ≠ "body" → ∀ left right, classChange keep name left right → left = right :=
    fun name different left right => (Change.only_of_ne different).mp
  unfold Tagged.class
  refine Shape.Agree.decode (.seq (.seq (.seq (.map ?_
    (.optionalSame (unchanged _ (by decide)) (Identifier.decode_agree .inner)))
    (.optionalSame (unchanged _ (by decide)) (Node.part_agree .inner)))
    (.required (decodeMembers_agree.mono fun _ _ => Change.only_self.mp)))
    (.requiredSame (unchanged _ (by decide)) (Span.decode_agree .inner))) _ _ differ _ _
  rintro id _ rfl base _ rfl members _ rfl span _ rfl
  rfl

/-- The tag of a class is as it was. -/
theorem classChange_type (left right : Json) (differ : classChange keep "type" left right) :
    left = right :=
  (Change.only_of_ne (by decide)).mp differ

/-- A default export that is no class is the same without the members that are not kept. -/
theorem DefaultExport.keepMembers_eq {value : Json} {small : sizeOf value < sizeOf whole}
    {declaration : DefaultExport} (decoded : DefaultExport.decode value small = .ok declaration)
    (noClass : kindOf "DefaultExport" DefaultExport.variants .inner value ≠ some "ClassDeclaration") :
    declaration.keepMembers keep = declaration := by
  unfold DefaultExport.decode at decoded
  obtain ⟨tagged, found, content⟩ := bind_eq_ok.mp decoded
  simp only [kindOf, found] at noClass
  split at content
  · obtain ⟨definition, _, made⟩ := bind_eq_ok.mp content
    cases made
    rfl
  · obtain ⟨definition, _, made⟩ := bind_eq_ok.mp content
    cases made
    rfl
  · rename_i isClass
    exact absurd isClass noClass
  · obtain ⟨definition, _, made⟩ := bind_eq_ok.mp content
    cases made
    rfl
  · unfold Tagged.catchAll at content
    split at content <;> cases content
    rfl

/-- A default export is read without the class members that are not kept. -/
theorem DefaultExport.decode_agree :
    (DefaultExport.decode : Decoder whole DefaultExport).Agree
      (fun left right => right = keepInDefault keep left)
      (fun left right => right = left.keepMembers keep)
      (DefaultExport.decode : Decoder other DefaultExport) := by
  intro left right small small' differ
  by_cases isClass :
    kindOf "DefaultExport" DefaultExport.variants .inner left = some "ClassDeclaration"
  · rw [keepInDefault, if_pos isClass] at differ
    subst differ
    have parts := Tagged.takeApart_agree classChange_type (keepInClass_agree keep left)
      "DefaultExport" DefaultExport.variants .inner
    refine parts.bind fun tagged tagged' found same => ?_
    have variant : tagged.variant = some "ClassDeclaration" := by simpa [kindOf, found] using isClass
    simp only [← same.1, variant]
    exact (class_agree same.2).bind fun definition definition' _ kept => kept ▸ rfl
  · rw [keepInDefault, if_neg isClass] at differ
    subst differ
    exact .of_fixed fun declaration decoded => DefaultExport.keepMembers_eq decoded isClass

/-- A statement that holds no class is the same without the members that are not kept. -/
theorem Statement.keepMembers_eq {place : Place} {value : Json} {statement : Statement}
    (decoded : Statement.decode place value = .ok statement)
    (noClass : kindOf "Statement" Statement.variants place value ≠ some "ClassDeclaration")
    (noNamed : kindOf "Statement" Statement.variants place value ≠ some "ExportNamedDeclaration")
    (noDefault :
      kindOf "Statement" Statement.variants place value ≠ some "ExportDefaultDeclaration") :
    statement.keepMembers keep = statement := by
  unfold Statement.decode at decoded
  obtain ⟨tagged, found, content⟩ := bind_eq_ok.mp decoded
  simp only [kindOf, found] at noClass noNamed noDefault
  split at content
  · obtain ⟨definition, _, made⟩ := bind_eq_ok.mp content
    cases made
    rfl
  · obtain ⟨declaration, _, made⟩ := bind_eq_ok.mp content
    cases made
    rfl
  · rename_i isClass
    exact absurd isClass noClass
  · obtain ⟨declaration, _, made⟩ := bind_eq_ok.mp content
    cases made
    rfl
  · rename_i isNamed
    exact absurd isNamed noNamed
  · rename_i isDefault
    exact absurd isDefault noDefault
  · unfold Tagged.catchAll at content
    split at content <;> cases content
    rfl

/-- A value with a changed part is null only when it was. -/
theorem atPart_eq_null {name : String} {index : Nat} {value : Json}
    {change : (part : Json) → sizeOf part < sizeOf value → Json} :
    value.atPart name index change = .null ↔ value = .null := by
  cases value <;> simp [Json.atPart]

/-- A statement without members that are not kept is null only when it was. -/
theorem keepInStatement_eq_null {place : Place} {value : Json} :
    keepInStatement keep place value = .null ↔ value = .null := by
  unfold keepInStatement
  split <;> simp [keepInClass, atPart_eq_null]

/-- How an export as a value differs when its declaration is changed. -/
def declarationChange (change : Json → Json) : Change :=
  .only "declaration" fun left right => right = change left

/-- An export with a changed declaration differs in its declaration only. -/
theorem declaration_agree (change : Json → Json) (value : Json) (later : List String)
    (apart : ("type" :: "declaration" :: later).Nodup) :
    PartsAgree (declarationChange change) ("type" :: "declaration" :: later) value
      (value.atPart "declaration" 1 fun inner _ => change inner) :=
  Json.atPart_agree value _ (fun _ _ => rfl) apart rfl

/-- What is not the declaration of an export is as it was. -/
theorem declarationChange_of_ne {change : Json → Json} {name : String} (different : name ≠ "declaration")
    (left right : Json) (differ : declarationChange change name left right) : left = right :=
  (Change.only_of_ne different).mp differ

/-- A statement is read without the class members that are not kept. -/
theorem Statement.decode_agree (keep : Json → Bool) (place : Place) (value : Json) :
    Agree (fun left right => right = left.keepMembers keep) (Statement.decode place value)
      (Statement.decode place (keepInStatement keep place value)) := by
  rw [keepInStatement]
  split
  · rename_i isClass
    have parts := Tagged.takeApart_agree classChange_type (keepInClass_agree keep value)
      "Statement" Statement.variants place
    unfold Statement.decode
    refine parts.bind fun tagged tagged' found same => ?_
    have variant : tagged.variant = some "ClassDeclaration" := by simpa [kindOf, found] using isClass
    simp only [← same.1, variant]
    exact (class_agree same.2).bind fun definition definition' _ kept => kept ▸ rfl
  · rename_i isNamed
    have parts := declaration_agree (keepInStatement keep .inner) value
      ["specifiers", "loc"] (by decide)
    have inner : Decoder.Agree (declarationChange (keepInStatement keep .inner) "declaration")
        (fun left right => right = left.keepMembers keep)
        (fun child _ => Statement.decode .inner child : Decoder value Statement)
        (fun child _ => Statement.decode .inner child : Decoder (value.atPart "declaration" 1
          fun inner _ => keepInStatement keep .inner inner) Statement) := by
      intro left right small small' differ
      have cut := Change.only_self.mp differ
      subst cut
      exact Statement.decode_agree keep .inner left
    rw [Statement.decode, Statement.decode]
    refine (Tagged.takeApart_agree (declarationChange_of_ne (by decide)) parts "Statement"
      Statement.variants place).bind fun tagged tagged' found same => ?_
    have variant : tagged.variant = some "ExportNamedDeclaration" := by
      simpa [kindOf, found] using isNamed
    simp only [← same.1, variant]
    refine Shape.Agree.decode (.seq (.seq (.map ?_ (.optional inner fun left right differ => ?_))
      (.defaulted rfl (decodeExportName_agree.list.mono (declarationChange_of_ne (by decide)))))
      (.requiredSame (declarationChange_of_ne (by decide)) (Span.decode_agree .inner)))
      _ _ same.2 _ _
    · intro inner inner' kept names names' sameNames span span' sameSpan
      subst sameNames sameSpan
      cases kept with
      | none => rfl
      | some kept => exact kept ▸ rfl
    · have cut := Change.only_self.mp differ
      subst cut
      exact keepInStatement_eq_null.symm
  · rename_i isDefault
    have parts := declaration_agree (keepInDefault keep) value ["loc"] (by decide)
    rw [Statement.decode, Statement.decode]
    refine (Tagged.takeApart_agree (declarationChange_of_ne (by decide)) parts "Statement"
      Statement.variants place).bind fun tagged tagged' found same => ?_
    have variant : tagged.variant = some "ExportDefaultDeclaration" := by
      simpa [kindOf, found] using isDefault
    simp only [← same.1, variant]
    refine Shape.Agree.decode (.seq (.map ?_
      (.required (DefaultExport.decode_agree.mono fun _ _ => Change.only_self.mp)))
      (.requiredSame (declarationChange_of_ne (by decide)) (Span.decode_agree .inner)))
      _ _ same.2 _ _
    rintro declaration _ rfl span _ rfl
    rfl
  · rename_i noClass noNamed noDefault
    exact .of_fixed fun statement decoded =>
      Statement.keepMembers_eq decoded noClass noNamed noDefault
termination_by sizeOf value

/-- What a statement holds without some class members is what is read when they are deleted. -/
theorem Statement.decode_keepInStatement (keep : Json → Bool) (place : Place) (value : Json) :
    Statement.decode place (keepInStatement keep place value) =
      (Statement.decode place value).map (Statement.keepMembers keep) :=
  (Statement.decode_agree keep place value).eq_map

end SourceOutline.Script
