import SourceOutline.Outline.File
import SourceOutline.Proofs.Scan.Coverage

/-! What is shown of an outline: all of it or what has no private name, and nothing else changes. -/

namespace SourceOutline

/-- A name that begins with an underscore. -/
def IsUnderscored (name : String) : Prop := ∃ rest, name = "_" ++ rest

/-- Private names are those that begin with an underscore. -/
theorem isPrivateName_iff {name : String} : isPrivateName name = true ↔ IsUnderscored name := by
  rw [isPrivateName, beq_iff_eq, List.head?_eq_some_iff]
  constructor
  · rintro ⟨rest, spelled⟩
    exact ⟨String.ofList rest, String.toList_inj.mp (by simp [spelled])⟩
  · rintro ⟨rest, rfl⟩
    exact ⟨rest.toList, by simp⟩

/-- Items picked from a list: exactly those that qualify, in order, each in the form it is shown in. -/
inductive Picks {α : Type} (qualifies : α → Prop) (showsAs : α → α → Prop) : List α → List α → Prop where
  /-- Nothing is picked from nothing. -/
  | nil : Picks qualifies showsAs [] []
  /-- An item that qualifies is shown in front of those picked behind it. -/
  | take {item shown : α} {items rest : List α} (qualified : qualifies item) (form : showsAs item shown)
    (later : Picks qualifies showsAs items rest) : Picks qualifies showsAs (item :: items) (shown :: rest)
  /-- An item that does not qualify is passed over. -/
  | pass {item : α} {items rest : List α} (barred : ¬qualifies item)
    (later : Picks qualifies showsAs items rest) : Picks qualifies showsAs (item :: items) rest

/-- A filter picks the items that pass it, each in the form given to it afterwards. -/
theorem Picks.of_filter {α : Type} {qualifies : α → Prop} {showsAs : α → α → Prop} {passes : α → Bool}
    {form : α → α} (decides : ∀ item, passes item = true ↔ qualifies item)
    (shows : ∀ item, showsAs item (form item)) (items : List α) :
    Picks qualifies showsAs items ((items.filter passes).map form) := by
  induction items with
  | nil => exact .nil
  | cons item rest ih =>
    by_cases qualified : qualifies item
    · rw [List.filter_cons_of_pos ((decides item).mpr qualified)]
      exact .take qualified (shows item) ih
    · rw [List.filter_cons_of_neg fun passed => qualified ((decides item).mp passed)]
      exact .pass qualified ih

namespace FunctionOutline

/-- A function of a name that is not private. -/
def IsPublic (function : FunctionOutline) : Prop := ¬IsUnderscored function.name

/-- Functions are told apart by the beginning of their names. -/
theorem isPublic_iff (function : FunctionOutline) : (!function.isPrivate) = true ↔ function.IsPublic := by
  rw [IsPublic, ← isPrivateName_iff, isPrivate, Bool.not_eq_true', Bool.not_eq_true]

/-- Those functions of a list that are public are picked unchanged. -/
theorem picks_filter (functions : List FunctionOutline) :
    Picks IsPublic Eq functions (functions.filter fun function => !function.isPrivate) := by
  have picked := Picks.of_filter isPublic_iff (fun function => Eq.refl (id function)) functions
  rwa [List.map_id] at picked

end FunctionOutline

namespace ClassOutline

/-- A class of a name that is not private. -/
def IsPublic (owner : ClassOutline) : Prop := ¬IsUnderscored owner.name

/-- A class is shown with its public methods, and with everything else as it is. -/
structure ShowsAs (owner shown : ClassOutline) : Prop where
  /-- Nothing but the list of methods may differ. -/
  unchanged : shown = { owner with methods := shown.methods }
  /-- The methods are the public ones, unchanged and in order. -/
  methods : Picks FunctionOutline.IsPublic Eq owner.methods shown.methods

/-- Classes are told apart by the beginning of their names. -/
theorem isPublic_iff (owner : ClassOutline) : (!owner.isPrivate) = true ↔ owner.IsPublic := by
  rw [IsPublic, ← isPrivateName_iff, isPrivate, Bool.not_eq_true', Bool.not_eq_true]

/-- A class without its private methods shows the others. -/
theorem showsAs_withoutPrivate (owner : ClassOutline) : owner.ShowsAs owner.withoutPrivate :=
  ⟨rfl, FunctionOutline.picks_filter owner.methods⟩

/-- A class without private methods has none to lose. -/
theorem withoutPrivate_withoutPrivate (owner : ClassOutline) :
    owner.withoutPrivate.withoutPrivate = owner.withoutPrivate := by
  simp [withoutPrivate]

end ClassOutline

namespace ModuleOutline

/-- What is without private names has none to lose. -/
theorem withoutPrivate_withoutPrivate (outline : ModuleOutline) :
    outline.withoutPrivate.withoutPrivate = outline.withoutPrivate := by
  -- The classes that stay have public names, and their methods are public already.
  have stay : ∀ owner ∈ outline.withoutPrivate.classes,
      (!owner.isPrivate) = true ∧ owner.withoutPrivate = owner := by
    intro owner member
    obtain ⟨whole, among, rfl⟩ := List.mem_map.mp member
    exact ⟨(List.mem_filter.mp among).2, whole.withoutPrivate_withoutPrivate⟩
  have classes : (outline.withoutPrivate.classes.filter fun owner => !owner.isPrivate).map
      ClassOutline.withoutPrivate = outline.withoutPrivate.classes := by
    rw [List.filter_eq_self.mpr fun owner member => (stay owner member).1]
    exact (List.map_congr_left fun owner member => (stay owner member).2).trans (List.map_id' _)
  have functions : (outline.withoutPrivate.functions.filter fun function => !function.isPrivate) =
      outline.withoutPrivate.functions :=
    List.filter_eq_self.mpr fun _ member => (List.mem_filter.mp member).2
  rw [withoutPrivate, functions, classes]

/-- What is shown of what is shown is the same. -/
theorem shown_shown (outline : ModuleOutline) (includePrivate : Bool) :
    (outline.shown includePrivate).shown includePrivate = outline.shown includePrivate := by
  cases includePrivate with
  | false => exact outline.withoutPrivate_withoutPrivate
  | true => rfl

/-- Imports, exports and notes are always shown. -/
theorem shown_frame (outline : ModuleOutline) (includePrivate : Bool) :
    (outline.shown includePrivate).imports = outline.imports ∧
      (outline.shown includePrivate).exports = outline.exports ∧
      (outline.shown includePrivate).omissions = outline.omissions := by
  cases includePrivate <;> exact ⟨rfl, rfl, rfl⟩

end ModuleOutline

namespace FileOutline

/-- The lists of the outline of a file, as the outline of a source. -/
def toModule (file : FileOutline) : ModuleOutline where
  functions := file.functions
  classes := file.classes
  imports := file.imports
  exports := file.exports
  omissions := file.omissions

/-- The lists of a file are those shown of its source. -/
theorem toModule_ofModule (outline : ModuleOutline) (path : String) (language : Language)
    (includePrivate : Bool) :
    (ofModule outline path language includePrivate).toModule = outline.shown includePrivate := rfl

/-- The outline of a file is not changed when it is made again of its own lists. -/
theorem ofModule_toModule (outline : ModuleOutline) (path : String) (language : Language)
    (includePrivate : Bool) :
    ofModule (ofModule outline path language includePrivate).toModule path language includePrivate =
      ofModule outline path language includePrivate := by
  rw [toModule_ofModule, ofModule, ModuleOutline.shown_shown]
  rfl

/-- The path tells the language, or else that there is none. -/
theorem ofModuleAt_cases (outline : ModuleOutline) (path : String) (includePrivate : Bool) :
    (∃ language, Language.ofPath path = .ok language ∧
      ofModuleAt outline path includePrivate = .ok (ofModule outline path language includePrivate)) ∨
    ∃ name, Language.ofPath path = .error name ∧
      ofModuleAt outline path includePrivate = .error (.unsupportedLanguage name) := by
  rw [ofModuleAt]
  cases Language.ofPath path with
  | ok language => exact .inl ⟨language, rfl, rfl⟩
  | error name => exact .inr ⟨name, rfl, rfl⟩

/-- A path has the extension of a language, in whatever letters. -/
def Tells (path : String) (language : Language) : Prop :=
  ∃ extension, FilePath.extension path = some extension ∧
    Text.lowercase extension ∈ language.extensions

section

variable (outline : ModuleOutline) (path : String) (includePrivate : Bool)

/-- The outline of a file is made for the language that its path tells. -/
theorem ofModuleAt_eq_ok_iff (language : Language) :
    ofModuleAt outline path includePrivate = .ok (ofModule outline path language includePrivate) ↔
      Tells path language := by
  have tells : Language.ofPath path = .ok language ↔ Tells path language := Language.ofPath_eq_ok_iff
  rw [← tells]
  rcases ofModuleAt_cases outline path includePrivate with ⟨told, found, made⟩ | ⟨name, silent, failed⟩
  · rw [made, found, Except.ok.injEq, Except.ok.injEq]
    exact ⟨congrArg FileOutline.language, fun same => same ▸ rfl⟩
  · rw [failed, silent]
    exact iff_of_false nofun nofun

/-- The outline of a file is refused when its path tells no language. -/
theorem ofModuleAt_eq_error_iff :
    (∃ name, ofModuleAt outline path includePrivate = .error (.unsupportedLanguage name)) ↔
      ∀ known, ¬Tells path known := by
  have tells : ∀ known, Language.ofPath path = .ok known ↔ Tells path known :=
    fun _ => Language.ofPath_eq_ok_iff
  rcases ofModuleAt_cases outline path includePrivate with ⟨told, found, made⟩ | ⟨name, silent, failed⟩
  · rw [made]
    exact iff_of_false (fun ⟨_, failed⟩ => nomatch failed) fun none_told => none_told told ((tells told).mp found)
  · refine iff_of_true ⟨name, failed⟩ fun known told => ?_
    have found := (tells known).mpr told
    rw [silent] at found
    cases found

/-- The outline of a file made again of its own lists for the same path is the same, or refused again. -/
theorem ofModuleAt_again :
    (ofModuleAt outline path includePrivate >>= fun made =>
      ofModuleAt made.toModule path includePrivate) = ofModuleAt outline path includePrivate := by
  rcases ofModuleAt_cases outline path includePrivate with ⟨told, found, made⟩ | ⟨name, silent, failed⟩
  · rw [made]
    show ofModuleAt (ofModule outline path told includePrivate).toModule path includePrivate = _
    rw [ofModuleAt, found]
    exact congrArg Except.ok (ofModule_toModule outline path told includePrivate)
  · rw [failed]
    rfl

end

/-- The outline of a file shows of its source what has no private name, or all when private names are
wanted; everything else is copied, and doing it again changes nothing. A path that tells no language
is the only reason for failure. -/
theorem ofModule_picks (outline : ModuleOutline) (path : String) (language : Language) :
    (Picks FunctionOutline.IsPublic Eq outline.functions (ofModule outline path language false).functions ∧
      Picks ClassOutline.IsPublic ClassOutline.ShowsAs outline.classes
        (ofModule outline path language false).classes) ∧
    ((ofModule outline path language true).functions = outline.functions ∧
      (ofModule outline path language true).classes = outline.classes) ∧
    ∀ includePrivate, let file := ofModule outline path language includePrivate
      (file.imports = outline.imports ∧ file.exports = outline.exports ∧
        file.omissions = outline.omissions) ∧
      (file.functionCount = file.functions.length ∧ file.classCount = file.classes.length ∧
        file.language = language ∧ file.path = path) ∧
      ofModule file.toModule path language includePrivate = file ∧
      (ofModuleAt outline path includePrivate = .ok file ↔ Tells path language) ∧
      ((∃ name, ofModuleAt outline path includePrivate = .error (.unsupportedLanguage name)) ↔
        ∀ known, ¬Tells path known) ∧
      (ofModuleAt outline path includePrivate >>= fun made =>
        ofModuleAt made.toModule path includePrivate) = ofModuleAt outline path includePrivate := by
  have functions : Picks FunctionOutline.IsPublic Eq outline.functions
      (ofModule outline path language false).functions := FunctionOutline.picks_filter outline.functions
  have classes : Picks ClassOutline.IsPublic ClassOutline.ShowsAs outline.classes
      (ofModule outline path language false).classes :=
    Picks.of_filter ClassOutline.isPublic_iff ClassOutline.showsAs_withoutPrivate outline.classes
  exact ⟨⟨functions, classes⟩, ⟨rfl, rfl⟩, fun includePrivate => ⟨outline.shown_frame includePrivate,
    ⟨rfl, rfl, rfl, rfl⟩, ofModule_toModule outline path language includePrivate,
    ofModuleAt_eq_ok_iff outline path includePrivate language, ofModuleAt_eq_error_iff outline path includePrivate,
    ofModuleAt_again outline path includePrivate⟩⟩

end FileOutline

end SourceOutline
