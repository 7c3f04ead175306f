import SourceOutline.Script.Extract

/-! The line that describes an import tells the names that it binds and the module that they come from. -/

namespace SourceOutline.Script

section

variable {α : Type} {separator : α}

/-- What stands in front of the first separator and what behind it are told by the whole. -/
theorem cut_inj {front front' back back' : List α} (free : separator ∉ front) (free' : separator ∉ front')
    (same : front ++ separator :: back = front' ++ separator :: back') : front = front' ∧ back = back' := by
  rcases List.append_eq_append_iff.mp same with ⟨more, rfl, behind⟩ | ⟨more, rfl, behind⟩
  · cases more with
    | nil => exact ⟨(List.append_nil front).symm, (List.cons.inj behind).2⟩
    | cons first more =>
      obtain rfl : separator = first := (List.cons.inj behind).1
      exact absurd (by simp) free'
  · cases more with
    | nil => exact ⟨List.append_nil front', (List.cons.inj behind).2.symm⟩
    | cons first more =>
      obtain rfl : separator = first := (List.cons.inj behind).1
      exact absurd (by simp) free

/-- Items that do not hold the first sign of a separator are told by what they are joined to. -/
theorem intercalate_inj {more : List α} {items items' : List (List α)} (free : ∀ item ∈ items, separator ∉ item)
    (free' : ∀ item ∈ items', separator ∉ item) (some_item : items ≠ []) (some_item' : items' ≠ [])
    (same : (separator :: more).intercalate items = (separator :: more).intercalate items') : items = items' := by
  induction items generalizing items' with
  | nil => exact absurd rfl some_item
  | cons item rest ih =>
    obtain ⟨item', rest', rfl⟩ := List.exists_cons_of_ne_nil some_item'
    obtain ⟨here, later⟩ := List.forall_mem_cons.mp free
    obtain ⟨here', later'⟩ := List.forall_mem_cons.mp free'
    -- An item stands alone, or a separator follows it.
    cases rest with
    | nil =>
      cases rest' with
      | nil => simpa using same
      | cons next' rest' =>
        rw [List.intercalate_singleton, List.intercalate_cons_cons] at same
        exact absurd (same ▸ by simp) here
    | cons next rest =>
      cases rest' with
      | nil =>
        rw [List.intercalate_singleton, List.intercalate_cons_cons] at same
        exact absurd (same ▸ by simp) here'
      | cons next' rest' =>
        simp only [List.intercalate_cons_cons, List.append_assoc, List.cons_append] at same
        obtain ⟨rfl, behind⟩ := cut_inj here here' same
        rw [ih later later' (List.cons_ne_nil next rest) (List.cons_ne_nil next' rest')
          (List.append_cancel_left behind)]

/-- What stands neither in a separator nor in the items does not stand in what they are joined to. -/
theorem not_mem_intercalate {sign : α} {joint : List α} {items : List (List α)} (outside : sign ∉ joint)
    (free : ∀ item ∈ items, sign ∉ item) : sign ∉ joint.intercalate items := by
  induction items with
  | nil => simp
  | cons item rest ih =>
    obtain ⟨here, later⟩ := List.forall_mem_cons.mp free
    cases rest with
    | nil => simpa using here
    | cons next rest =>
      rw [List.intercalate_cons_cons]
      simpa [here, outside] using ih later

/-- Two lists, all items of the first and none of the second having a property, are told by the whole. -/
theorem append_inj_of_forall (holds : α → Bool) {front front' back back' : List α}
    (inside : ∀ item ∈ front, holds item = true) (inside' : ∀ item ∈ front', holds item = true)
    (outside : ∀ item ∈ back, holds item = false) (outside' : ∀ item ∈ back', holds item = false)
    (same : front ++ back = front' ++ back') : front = front' ∧ back = back' := by
  have kept : ∀ {first second : List α}, (∀ item ∈ first, holds item = true) →
      (∀ item ∈ second, holds item = false) → (first ++ second).filter holds = first := by
    intro first second all none
    rw [List.filter_append, List.filter_eq_self.mpr all, List.filter_eq_nil_iff.mpr (by simpa using none),
      List.append_nil]
  have first : front = front' := by
    rw [← kept inside outside, same, kept inside' outside']
  exact ⟨first, List.append_cancel_left (first ▸ same)⟩

end

/-- A name without the signs that separate the parts of a description; no identifier holds any of them. -/
structure IsLocalName (name : String) : Prop where
  /-- There is no comma. -/
  comma : ',' ∉ name.toList
  /-- There is no space. -/
  space : ' ' ∉ name.toList
  /-- There is no closing brace. -/
  brace : '\x7d' ∉ name.toList

namespace Import

/-- The names that an import gives to the whole module. -/
def wholeNames (declaration : Import) : List String :=
  declaration.names.filterMap fun
    | .wholeModule id => some id.name
    | _ => none

/-- An import as it may be written: its local names are identifiers, and at most one stands for the whole module. -/
structure IsProper (declaration : Import) : Prop where
  /-- The single names are identifiers. -/
  singles : ∀ name ∈ declaration.singleNames, IsLocalName name
  /-- The name for the whole module is an identifier. -/
  wholes : ∀ name ∈ declaration.wholeNames, IsLocalName name
  /-- There is at most one name for the whole module. -/
  unique : declaration.wholeNames.length ≤ 1

/-- The items between the braces of a description. -/
def items (declaration : Import) : List String :=
  declaration.singleNames ++ declaration.wholeNames.map ("* as " ++ ·)

variable {declaration : Import}

/-- The name that counts for the whole module is the only one. -/
theorem IsProper.toList_wholeName (proper : declaration.IsProper) :
    declaration.wholeName.toList = declaration.wholeNames := by
  have last : declaration.wholeName = declaration.wholeNames.getLast? := rfl
  have unique := proper.unique
  rw [last]
  match declaration.wholeNames, unique with
  | [], _ => rfl
  | [name], _ => rfl

/-- An import without names is described by its module alone. -/
theorem IsProper.described_bare (proper : declaration.IsProper) (singles : declaration.singleNames = [])
    (wholes : declaration.wholeNames = []) :
    declaration.described.toList = "import '".toList ++ (declaration.moduleName.toList ++ ['\'']) := by
  have none : declaration.wholeName = none := by simpa [wholes] using proper.toList_wholeName
  simp [described, singles, none]

/-- A name for the whole module stands without braces when it is alone. -/
theorem IsProper.described_whole (proper : declaration.IsProper) {name : String}
    (singles : declaration.singleNames = []) (wholes : declaration.wholeNames = [name]) :
    declaration.described.toList = "import * as ".toList ++ (name.toList ++
      ' ' :: ("from '".toList ++ (declaration.moduleName.toList ++ ['\'']))) := by
  have some_name : declaration.wholeName = some name := by simpa [wholes] using proper.toList_wholeName
  simp [described, singles, some_name]

/-- Single names stand between braces, and a name for the whole module behind them. -/
theorem IsProper.described_items (proper : declaration.IsProper) (singles : declaration.singleNames ≠ []) :
    declaration.described.toList = "import \x7b".toList ++
      ([',', ' '].intercalate (declaration.items.map String.toList) ++
        '\x7d' :: (" from '".toList ++ (declaration.moduleName.toList ++ ['\'']))) := by
  obtain ⟨first, rest, cons⟩ := List.exists_cons_of_ne_nil singles
  rw [items, ← proper.toList_wholeName, cons, described, cons]
  cases declaration.wholeName <;> simp [String.toList_intercalate]

/-- The items between the braces hold neither commas nor closing braces. -/
theorem IsProper.items_free (proper : declaration.IsProper) :
    ∀ item ∈ declaration.items.map String.toList, ',' ∉ item ∧ '\x7d' ∉ item := by
  intro item member
  obtain ⟨text, inside, rfl⟩ := List.mem_map.mp member
  rcases List.mem_append.mp inside with single | whole
  · exact ⟨(proper.singles text single).comma, (proper.singles text single).brace⟩
  · obtain ⟨name, among, rfl⟩ := List.mem_map.mp whole
    have plain := proper.wholes name among
    exact ⟨by simpa using plain.comma, by simpa using plain.brace⟩

/-- The single names are told from the name for the whole module by the spaces of its item. -/
theorem IsProper.items_inj {other : Import} (proper : declaration.IsProper) (proper' : other.IsProper)
    (same : declaration.items = other.items) :
    declaration.singleNames = other.singleNames ∧ declaration.wholeNames = other.wholeNames := by
  have spaced : ∀ names : List String, ∀ item ∈ names.map ("* as " ++ ·), (!item.toList.contains ' ') = false := by
    simp
  obtain ⟨singles, wholes⟩ := append_inj_of_forall (fun item => !item.toList.contains ' ')
    (fun name member => by simpa using (proper.singles name member).space)
    (fun name member => by simpa using (proper'.singles name member).space) (spaced _) (spaced _) same
  refine ⟨singles, (List.map_inj_right fun first second same => ?_).mp wholes⟩
  simpa using same

/-- What stands between the braces holds no closing brace. -/
theorem IsProper.brace_not_mem (proper : declaration.IsProper) :
    '\x7d' ∉ [',', ' '].intercalate (declaration.items.map String.toList) :=
  not_mem_intercalate (by decide) fun item member => (proper.items_free item member).2

/-- An import has no names, one for the whole module alone, or single names. -/
theorem IsProper.forms (proper : declaration.IsProper) :
    (declaration.singleNames = [] ∧ declaration.wholeNames = []) ∨
      (declaration.singleNames = [] ∧ ∃ name, declaration.wholeNames = [name]) ∨ declaration.singleNames ≠ [] := by
  have unique := proper.unique
  by_cases singles : declaration.singleNames = []
  · match wholes : declaration.wholeNames, unique with
    | [], _ => exact .inl ⟨singles, rfl⟩
    | [name], _ => exact .inr (.inl ⟨singles, name, rfl⟩)
  · exact .inr (.inr singles)

section

variable {other : Import} (proper : declaration.IsProper) (proper' : other.IsProper)
  (same : declaration.described.toList = other.described.toList)

include proper proper' same

/-- Imports without names are described alike only when they have the same module. -/
theorem IsProper.bare_inj (singles : declaration.singleNames = []) (singles' : other.singleNames = [])
    (wholes : declaration.wholeNames = []) (wholes' : other.wholeNames = []) :
    declaration.moduleName = other.moduleName := by
  rw [proper.described_bare singles wholes, proper'.described_bare singles' wholes'] at same
  exact String.toList_inj.mp (List.append_cancel_right (List.append_cancel_left same))

/-- Imports with a lone name for the whole module are described alike only when it and the module are the same. -/
theorem IsProper.whole_inj {name name' : String} (singles : declaration.singleNames = [])
    (singles' : other.singleNames = []) (wholes : declaration.wholeNames = [name])
    (wholes' : other.wholeNames = [name']) : name = name' ∧ declaration.moduleName = other.moduleName := by
  rw [proper.described_whole singles wholes, proper'.described_whole singles' wholes'] at same
  have plain := (proper.wholes name (by simp [wholes])).space
  have plain' := (proper'.wholes name' (by simp [wholes'])).space
  obtain ⟨names, behind⟩ := cut_inj plain plain' (List.append_cancel_left same)
  have modules := List.append_cancel_right (List.append_cancel_left behind)
  exact ⟨String.toList_inj.mp names, String.toList_inj.mp modules⟩

/-- Imports with single names are described alike only when all names and the module are the same. -/
theorem IsProper.listed_inj (singles : declaration.singleNames ≠ []) (singles' : other.singleNames ≠ []) :
    (declaration.singleNames = other.singleNames ∧ declaration.wholeNames = other.wholeNames) ∧
      declaration.moduleName = other.moduleName := by
  rw [proper.described_items singles, proper'.described_items singles'] at same
  obtain ⟨joined, behind⟩ := cut_inj proper.brace_not_mem proper'.brace_not_mem (List.append_cancel_left same)
  have modules := List.append_cancel_right (List.append_cancel_left behind)
  have texts := intercalate_inj (fun item member => (proper.items_free item member).1)
    (fun item member => (proper'.items_free item member).1) (by simp [items, singles]) (by simp [items, singles'])
    joined
  have same_items := (List.map_inj_right fun _ _ => String.toList_inj.mp).mp texts
  exact ⟨proper.items_inj proper' same_items, String.toList_inj.mp modules⟩

end

/-- Two imports are described alike exactly when they bind the same single names in the same order, give the same
name or none to the whole module, and import from the same module. -/
theorem described_eq_iff {first second : Import} (proper : first.IsProper) (proper' : second.IsProper) :
    first.described = second.described ↔ first.singleNames = second.singleNames ∧
      first.wholeNames = second.wholeNames ∧ first.moduleName = second.moduleName := by
  constructor
  · intro same
    have same := congrArg String.toList same
    -- Behind the first word stands a quote, a star or a brace, which tells the form.
    rcases proper.forms with ⟨singles, wholes⟩ | ⟨singles, name, wholes⟩ | singles <;>
      rcases proper'.forms with ⟨singles', wholes'⟩ | ⟨singles', name', wholes'⟩ | singles'
    · have modules := proper.bare_inj proper' same singles singles' wholes wholes'
      exact ⟨singles.trans singles'.symm, wholes.trans wholes'.symm, modules⟩
    · simp [proper.described_bare singles wholes, proper'.described_whole singles' wholes'] at same
    · simp [proper.described_bare singles wholes, proper'.described_items singles'] at same
    · simp [proper.described_whole singles wholes, proper'.described_bare singles' wholes'] at same
    · obtain ⟨rfl, modules⟩ := proper.whole_inj proper' same singles singles' wholes wholes'
      exact ⟨singles.trans singles'.symm, wholes.trans wholes'.symm, modules⟩
    · simp [proper.described_whole singles wholes, proper'.described_items singles'] at same
    · simp [proper.described_items singles, proper'.described_bare singles' wholes'] at same
    · simp [proper.described_items singles, proper'.described_whole singles' wholes'] at same
    · obtain ⟨⟨names, wholes⟩, modules⟩ := proper.listed_inj proper' same singles singles'
      exact ⟨names, wholes, modules⟩
  · rintro ⟨singles, wholes, modules⟩
    have whole : first.wholeName = second.wholeName := congrArg List.getLast? wholes
    simp only [described, singles, whole, modules]

/-- It does not matter where the name for the whole module stands among the single ones, and the name of a module may
look like the end of a description. -/
theorem described_eq_iff_order :
    ∃ first second : Import, first.names ≠ second.names ∧ first.IsProper ∧ second.IsProper ∧
      first.described = second.described ∧ first.described = "import \x7ba, * as u\x7d from 'x' from 'y'" ∧
      first.singleNames = second.singleNames ∧ first.wholeNames = second.wholeNames ∧
      first.moduleName = second.moduleName := by
  let literal : Node := .mk "Literal" none none (some (.string "x' from 'y")) none none none
  let single : ImportName := .single ⟨"a", none⟩
  let whole : ImportName := .wholeModule ⟨"u", none⟩
  have plain : IsLocalName "a" := ⟨by decide, by decide, by decide⟩
  have plain' : IsLocalName "u" := ⟨by decide, by decide, by decide⟩
  have proper : IsProper ⟨literal, [single, whole]⟩ :=
    ⟨List.forall_mem_singleton.mpr plain, List.forall_mem_singleton.mpr plain', Nat.le_refl 1⟩
  have proper' : IsProper ⟨literal, [whole, single]⟩ :=
    ⟨List.forall_mem_singleton.mpr plain, List.forall_mem_singleton.mpr plain', Nat.le_refl 1⟩
  have same : described ⟨literal, [single, whole]⟩ = described ⟨literal, [whole, single]⟩ := rfl
  exact ⟨_, _, by simp [single, whole], proper, proper', same, by decide +kernel,
    (described_eq_iff proper proper').mp same⟩

end Import

end SourceOutline.Script
