import SourceOutline.Outline.Batch
import SourceOutline.Proofs.Json.Reading
import SourceOutline.Settings

/-! Outlines, reports and settings survive being written and read back. -/

namespace SourceOutline

namespace Json.IsPlain

variable {depth : Nat}

/-- A number below the limit is plain. -/
theorem of_lt {n : Nat} (fits : n < 2 ^ 64) : IsPlain depth (.nat n) :=
  .nat (Nat.le_of_lt_succ fits)

/-- A list of plain values is plain. -/
theorem list {α : Type} {encode : α → Json} {items : List α}
    (each : ∀ item ∈ items, IsPlain depth (encode item)) : IsPlain (depth + 1) (.array (items.map encode)) :=
  .array (List.forall_mem_map.mpr each)

/-- A list of texts is plain. -/
theorem strings (texts : List String) : IsPlain (depth + 1) (.strings texts) :=
  .list fun text _ => .string text

/-- A text that may be absent is plain. -/
theorem stringOrNull (text : Option String) : IsPlain depth (.stringOrNull text) := by
  cases text with
  | none => exact .null
  | some text => exact .string text

/-- A map of texts is plain. -/
theorem map (texts : NameMap String) : IsPlain (depth + 1) texts.encode := by
  refine .object ?_ (List.forall_mem_map.mpr fun entry _ => .string entry.2)
  rw [List.map_map]
  exact texts.nodup_names

end Json.IsPlain

/-- What was encoded survives: it is decoded from the value that it is encoded as, and from what is read of that
value when it is written on one line or with one part per line. -/
def Survives {α : Type} (decode : Json → Except DecodeError α) (encoded : Json) (a : α) : Prop :=
  decode encoded = .ok a ∧
    ∀ text, text = encoded.compact ∨ text = encoded.pretty →
      (Json.read text.toList).map decode = some (.ok a)

/-- A plain value that is decoded wherever its fields stand survives. -/
theorem survives_of_restores {α : Type} {decode : Json → Except DecodeError α} {encoded : Json} {a : α}
    {depth : Nat} (plain : encoded.IsPlain depth) (shallow : depth ≤ Json.deepest)
    (restores : ∀ told, encoded.Rearranged told → decode told = .ok a) : Survives decode encoded a := by
  refine ⟨restores encoded plain.rearranged, fun text written => ?_⟩
  obtain ⟨told, same, read⟩ := plain.exists_read shallow written
  rw [read, Option.map_some, restores told same]

/-- Maps of texts are read back. -/
theorem Decoder.restores_texts {whole : Json} (texts : NameMap String) :
    (Decoder.map string : Decoder whole (NameMap String)).Restores texts.encode texts :=
  restores_map texts fun entry _ => restores_string entry.2

namespace FunctionOutline

/-- The number in the outline of a function has sixty-four bits. -/
def Fits (function : FunctionOutline) : Prop := function.line < 2 ^ 64

/-- A function is written plainly. -/
theorem isPlain_encode {function : FunctionOutline} (fits : function.Fits) (depth : Nat) :
    function.encode.IsPlain (depth + 2) := by
  refine .object (by simp) ?_
  simp only [List.forall_mem_cons, List.not_mem_nil, false_implies, implies_true, and_true]
  exact ⟨.string _, .strings _, .map _, .stringOrNull _, .stringOrNull _, .map _, .bool _, .bool _, .bool _,
    .of_lt fits, .string _⟩

open Decoder Shape in
/-- A function is read back. -/
theorem restores_encode {whole : Json} (function : FunctionOutline) :
    (decode : Decoder whole FunctionOutline).Restores function.encode function := by
  intro told same small
  refine Shape.Restores.decode ?_ same _ _ _
  exact (restores_field (by simp) (restores_string function.name)).map mk
    |>.seq (restores_field (by simp) (restores_strings function.parameters))
    |>.seq (restores_field (by simp) (restores_texts function.annotations))
    |>.seq (restores_field (by simp) (restores_stringOrNull restores_string function.returns))
    |>.seq (restores_field (by simp) (restores_stringOrNull restores_string function.description))
    |>.seq (restores_field (by simp) (restores_texts function.tags))
    |>.seq (restores_field (by simp) (restores_bool function.isAsync))
    |>.seq (restores_field (by simp) (restores_bool function.isExpression))
    |>.seq (restores_field (by simp) (restores_bool function.isExported))
    |>.seq (restores_field (by simp) (restores_natural function.line "usize"))
    |>.seq (restores_field (by simp) (restores_string function.text))

end FunctionOutline

namespace ClassOutline

/-- The numbers in the outline of a class have sixty-four bits. -/
structure Fits (owner : ClassOutline) : Prop where
  /-- The class starts in such a line. -/
  line : owner.line < 2 ^ 64
  /-- So do its methods. -/
  methods : ∀ method ∈ owner.methods, method.Fits

/-- A class is written plainly. -/
theorem isPlain_encode {owner : ClassOutline} (fits : owner.Fits) (depth : Nat) : owner.encode.IsPlain (depth + 4) := by
  refine .object (by simp) ?_
  simp only [List.forall_mem_cons, List.not_mem_nil, false_implies, implies_true, and_true]
  exact ⟨.string _, .stringOrNull _, .map _, .strings _,
    .list fun method member => FunctionOutline.isPlain_encode (fits.methods method member) depth, .strings _, .bool _,
    .of_lt fits.line, .string _⟩

open Decoder Shape in
/-- A class is read back. -/
theorem restores_encode {whole : Json} (owner : ClassOutline) :
    (decode : Decoder whole ClassOutline).Restores owner.encode owner := by
  intro told same small
  refine Shape.Restores.decode ?_ same _ _ _
  exact (restores_field (by simp) (restores_string owner.name)).map mk
    |>.seq (restores_field (by simp) (restores_stringOrNull restores_string owner.description))
    |>.seq (restores_field (by simp) (restores_texts owner.tags))
    |>.seq (restores_field (by simp) (restores_strings owner.bases))
    |>.seq (restores_field (by simp) (restores_list fun method _ => method.restores_encode))
    |>.seq (restores_field (by simp) (restores_strings owner.properties))
    |>.seq (restores_field (by simp) (restores_bool owner.isExported))
    |>.seq (restores_field (by simp) (restores_natural owner.line "usize"))
    |>.seq (restores_field (by simp) (restores_string owner.text))

end ClassOutline

namespace Omission

/-- The line of a note has sixty-four bits if it is known. -/
def Fits (omission : Omission) : Prop := ∀ line, omission.line = some line → line < 2 ^ 64

/-- A note is written plainly. -/
theorem isPlain_encode {omission : Omission} (fits : omission.Fits) (depth : Nat) :
    omission.encode.IsPlain (depth + 1) := by
  obtain ⟨kind, message, line⟩ := omission
  refine .object (by cases line <;> simp) (List.forall_mem_append.mpr ⟨?always, ?known⟩)
  case always =>
    simp only [List.forall_mem_cons, List.not_mem_nil, false_implies, implies_true, and_true]
    exact ⟨.string _, .string _⟩
  case known =>
    cases line with
    | none => nofun
    | some line => exact List.forall_mem_singleton.mpr (.of_lt (fits line rfl))

open Decoder Shape in
/-- A note is read back, with or without its line. -/
theorem restores_encode {whole : Json} (omission : Omission) :
    (decode : Decoder whole Omission).Restores omission.encode omission := by
  obtain ⟨kind, message, line⟩ := omission
  intro told same small
  refine Shape.Restores.decode ?_ same _ _ _
  have line : (Shape.defaulted "line" none (.nullable .count) : Shape whole (Option Nat)).Restores
      ([("kind", Json.string kind), ("message", .string message)] ++
        (line.map fun line => ("line", Json.nat line)).toList) line := by
    cases line with
    | none => exact restores_defaulted (by simp)
    | some line => exact restores_field (by simp) ((restores_natural line "usize").nullable nofun)
  exact (restores_field (by simp) (restores_string kind)).map mk
    |>.seq (restores_field (by simp) (restores_string message))
    |>.seq line

end Omission

namespace ModuleOutline

/-- The numbers in an outline have sixty-four bits. -/
structure Fits (outline : ModuleOutline) : Prop where
  /-- Those of its functions. -/
  functions : ∀ function ∈ outline.functions, function.Fits
  /-- Those of its classes. -/
  classes : ∀ owner ∈ outline.classes, owner.Fits
  /-- Those of its notes. -/
  omissions : ∀ omission ∈ outline.omissions, omission.Fits

/-- An outline is written plainly. -/
theorem isPlain_encode {outline : ModuleOutline} (fits : outline.Fits) : outline.encode.IsPlain 6 := by
  refine .object (by simp) ?_
  simp only [List.forall_mem_cons, List.not_mem_nil, false_implies, implies_true, and_true]
  refine ⟨.list fun function member => FunctionOutline.isPlain_encode (fits.functions function member) 2,
    .list fun owner member => ClassOutline.isPlain_encode (fits.classes owner member) 0, .strings _, .strings _,
    .object (by simp) (List.forall_mem_singleton.mpr ?_)⟩
  exact .list fun omission member => Omission.isPlain_encode (fits.omissions omission member) 2

open Decoder Shape in
/-- What was left out is read back, also when it is nothing. -/
theorem restores_omissions {whole : Json} (omissions : List Omission) :
    (decodeOmissions : Decoder whole (List Omission)).Restores
      (.object [("skipped_nodes", .array (omissions.map Omission.encode))]) omissions := by
  intro told same small
  refine Shape.Restores.decode ?_ same _ _ _
  exact restores_field (by simp) (restores_list fun omission _ => omission.restores_encode)

open Decoder Shape in
/-- An outline is decoded wherever its fields stand. -/
theorem decode_of_rearranged (outline : ModuleOutline) {told : Json} (same : outline.encode.Rearranged told) :
    decode told = .ok outline := by
  refine Shape.Restores.decode ?_ same _ _ _
  exact (restores_field (by simp) (restores_list fun function _ => function.restores_encode)).map mk
    |>.seq (restores_field (by simp) (restores_list fun owner _ => owner.restores_encode))
    |>.seq (restores_field (by simp) (restores_strings outline.imports))
    |>.seq (restores_field (by simp) (restores_strings outline.exports))
    |>.seq (restores_field (by simp) (restores_omissions outline.omissions))

end ModuleOutline

namespace FileOutline

/-- The numbers in the outline of a file have sixty-four bits. -/
structure Fits (outline : FileOutline) : Prop where
  /-- Those of its functions. -/
  functions : ∀ function ∈ outline.functions, function.Fits
  /-- Those of its classes. -/
  classes : ∀ owner ∈ outline.classes, owner.Fits
  /-- How many functions there are. -/
  functionCount : outline.functionCount < 2 ^ 64
  /-- How many classes there are. -/
  classCount : outline.classCount < 2 ^ 64
  /-- Those of its notes. -/
  omissions : ∀ omission ∈ outline.omissions, omission.Fits

/-- The outline of a file is written plainly. -/
theorem isPlain_encode {outline : FileOutline} (fits : outline.Fits) (depth : Nat) :
    outline.encode.IsPlain (depth + 6) := by
  refine .object (by cases outline.omissions <;> simp) (List.forall_mem_append.mpr ⟨?always, ?shown⟩)
  case always =>
    simp only [List.forall_mem_cons, List.not_mem_nil, false_implies, implies_true, and_true]
    exact ⟨.string _, .string _,
      .list fun function member => FunctionOutline.isPlain_encode (fits.functions function member) (depth + 2),
      .list fun owner member => ClassOutline.isPlain_encode (fits.classes owner member) depth, .strings _, .strings _,
      .of_lt fits.functionCount, .of_lt fits.classCount⟩
  case shown =>
    split
    · nofun
    · exact List.forall_mem_singleton.mpr
        (.list fun omission member => Omission.isPlain_encode (fits.omissions omission member) (depth + 3))

/-- Languages are read back. -/
theorem restores_language {whole : Json} (language : Language) :
    (Language.part : Decoder whole Language).Restores language.encode language :=
  Decoder.restores_of_scalar rfl rfl fun _ => by cases language <;> rfl

/-- The outline of a file read from a value of its own. -/
def decodeAlone (value : Json) : Except DecodeError FileOutline :=
  shape.decode "struct NormalizedModule" .outer value (Json.sizeOf_le_self value)

open Decoder Shape in
/-- The fields of the outline of a file are read back, with or without notes. -/
theorem restores_fields {whole : Json} (outline : FileOutline) {fields : List (String × Json)}
    (written : outline.encode = .object fields) : (shape : Shape whole FileOutline).Restores fields outline := by
  obtain rfl := Json.object.inj written
  obtain ⟨language, path, functions, classes, imports, exports, functionCount, classCount, omissions⟩ := outline
  rw [shape]
  refine .seq ?others ?notes
  case others =>
    exact (restores_field (by simp) (restores_language language)).map mk
      |>.seq (restores_field (by simp) (restores_string path))
      |>.seq (restores_field (by simp) (restores_list fun function _ => function.restores_encode))
      |>.seq (restores_field (by simp) (restores_list fun owner _ => owner.restores_encode))
      |>.seq (restores_field (by simp) (restores_strings imports))
      |>.seq (restores_field (by simp) (restores_strings exports))
      |>.seq (restores_field (by simp) (restores_natural functionCount "usize"))
      |>.seq (restores_field (by simp) (restores_natural classCount "usize"))
  case notes =>
    by_cases none : omissions = []
    · rw [none]
      exact restores_defaulted (by simp)
    · exact restores_field (by simp [none]) (restores_list fun omission _ => omission.restores_encode)

/-- The outline of a file is decoded wherever its fields stand. -/
theorem restores_encode {whole : Json} (outline : FileOutline) :
    (decode : Decoder whole FileOutline).Restores outline.encode outline := fun _ same _ =>
  (outline.restores_fields rfl).decode same _ _ _

end FileOutline

namespace BatchReport

/-- The numbers in a report have sixty-four bits. -/
structure Fits (report : BatchReport) : Prop where
  /-- Those of the outlines. -/
  results : ∀ outline ∈ report.results, outline.Fits
  /-- Those of the reasons why files have none. -/
  omitted : ∀ file ∈ report.omitted, file.reason.Fits

/-- A report is written plainly. -/
theorem isPlain_encode {report : BatchReport} (fits : report.Fits) : report.encode.IsPlain 8 := by
  have omitted : ∀ file ∈ report.omitted, file.encode.IsPlain 6 := fun file member => by
    refine .object (by simp) ?_
    simp only [List.forall_mem_cons, List.not_mem_nil, false_implies, implies_true, and_true]
    exact ⟨.string _, Omission.isPlain_encode (fits.omitted file member) 4⟩
  refine .object (by simp) ?_
  simp only [List.forall_mem_cons, List.not_mem_nil, false_implies, implies_true, and_true]
  exact ⟨.list fun outline member => FileOutline.isPlain_encode (fits.results outline member) 0, .list omitted⟩

open Decoder Shape in
/-- A file without outline is read back. -/
theorem restores_omitted {whole : Json} (file : OmittedFile) :
    (OmittedFile.decode : Decoder whole OmittedFile).Restores file.encode file := by
  intro told same small
  refine Shape.Restores.decode ?_ same _ _ _
  exact (restores_field (by simp) (restores_path file.path)).map OmittedFile.mk
    |>.seq (restores_field (by simp) file.reason.restores_encode)

open Decoder Shape in
/-- A report is decoded wherever its fields stand. -/
theorem decode_of_rearranged (report : BatchReport) {told : Json} (same : report.encode.Rearranged told) :
    decode told = .ok report := by
  refine Shape.Restores.decode ?_ same _ _ _
  exact (restores_field (by simp) (restores_list fun outline _ => outline.restores_encode)).map mk
    |>.seq (restores_field (by simp) (restores_list fun file _ => restores_omitted file))

end BatchReport

namespace Settings

/-- The numbers in settings have sixty-four bits. -/
structure Fits (settings : Settings) : Prop where
  /-- The lines that are searched. -/
  docWindow : settings.docWindow < 2 ^ 64
  /-- The size of files. -/
  maxFileBytes : settings.maxFileBytes < 2 ^ 64
  /-- The time for the engine. -/
  timeout : settings.engine.timeout < 2 ^ 64

/-- Settings are written plainly. -/
theorem isPlain_encode {settings : Settings} (fits : settings.Fits) : settings.encode.IsPlain 2 := by
  have engine : settings.engine.encode.IsPlain 1 := by
    refine .object (by simp) ?_
    simp only [List.forall_mem_cons, List.not_mem_nil, false_implies, implies_true, and_true]
    exact ⟨.string _, .string _, .string _, .bool _, .of_lt fits.timeout, .stringOrNull _⟩
  refine .object (by simp) ?_
  simp only [List.forall_mem_cons, List.not_mem_nil, false_implies, implies_true, and_true]
  exact ⟨.bool _, .of_lt fits.docWindow, .of_lt fits.maxFileBytes, engine⟩

open Decoder Shape in
/-- Engine settings are read back. -/
theorem restores_engine {whole : Json} (settings : EngineSettings) :
    (EngineSettings.decode : Decoder whole EngineSettings).Restores settings.encode settings := by
  intro told same small
  refine Shape.Restores.decode (.closed ?_ fun _ => id) same _ _ _
  exact (restores_field (by simp) (restores_string settings.program)).map EngineSettings.mk
    |>.seq (restores_field (by simp) (restores_string settings.installer))
    |>.seq (restores_field (by simp) (restores_path settings.directory))
    |>.seq (restores_field (by simp) (restores_bool settings.autoInstall))
    |>.seq (restores_field (by simp) (restores_natural settings.timeout "u64"))
    |>.seq (restores_field (by simp) (restores_stringOrNull restores_path settings.scratch))

open Decoder Shape in
/-- Settings are decoded wherever their fields stand. -/
theorem decode_of_rearranged (settings : Settings) {told : Json} (same : settings.encode.Rearranged told) :
    decode told = .ok settings := by
  refine Shape.Restores.decode (.closed ?_ fun _ => id) same _ _ _
  exact (restores_field (by simp) (restores_bool settings.includePrivate)).map mk
    |>.seq (restores_field (by simp) (restores_natural settings.docWindow "usize"))
    |>.seq (restores_field (by simp) (restores_natural settings.maxFileBytes "u64"))
    |>.seq (restores_field (by simp) (restores_engine settings.engine))

end Settings

/-- The list of notes is left out exactly when there are none. -/
theorem FileOutline.get?_encode_eq_none_iff (outline : FileOutline) :
    outline.encode.get? "skipped_nodes" = none ↔ outline.omissions = [] := by
  by_cases none : outline.omissions = [] <;> simp [encode, Json.get?, none]

/-- The line of a note is left out exactly when it is not known. -/
theorem Omission.get?_encode_eq_none_iff (omission : Omission) :
    omission.encode.get? "line" = none ↔ omission.line = none := by
  cases known : omission.line <;> simp [encode, Json.get?, known]

/-- Outlines of sources and of files, reports and settings with numbers of sixty-four bits survive: they are
decoded from what they are encoded as, and from what is read of it when it is written on one line or on many.
So do the parts that are not written at all, an empty list of notes and a line that is not known. -/
theorem reports_survive :
    (∀ outline : ModuleOutline, outline.Fits → Survives ModuleOutline.decode outline.encode outline) ∧
    (∀ outline : FileOutline, outline.Fits → Survives FileOutline.decodeAlone outline.encode outline) ∧
    (∀ report : BatchReport, report.Fits → Survives BatchReport.decode report.encode report) ∧
    (∀ settings : Settings, settings.Fits → Survives Settings.decode settings.encode settings) ∧
    (∀ outline : FileOutline, outline.encode.get? "skipped_nodes" = none ↔ outline.omissions = []) ∧
    ∀ omission : Omission, omission.encode.get? "line" = none ↔ omission.line = none := by
  refine ⟨fun outline fits => ?module, fun outline fits => ?file, fun report fits => ?report,
    fun settings fits => ?settings, FileOutline.get?_encode_eq_none_iff, Omission.get?_encode_eq_none_iff⟩
  case module =>
    exact survives_of_restores (ModuleOutline.isPlain_encode fits) (by decide) fun _ same =>
      outline.decode_of_rearranged same
  case file =>
    exact survives_of_restores (FileOutline.isPlain_encode fits 0) (by decide) fun _ same =>
      (outline.restores_fields rfl).decode same _ _ _
  case report =>
    exact survives_of_restores (BatchReport.isPlain_encode fits) (by decide) fun _ same =>
      report.decode_of_rearranged same
  case settings =>
    exact survives_of_restores (Settings.isPlain_encode fits) (by decide) fun _ same =>
      settings.decode_of_rearranged same

/-- A report on a file without notes and on one that could not be parsed, for a reason without a line. -/
theorem reports_survive_report :
    let outline : FileOutline := ⟨.python, "a.py", [{ name := "f", line := 1 }], [], [], [], 1, 0, []⟩
    let report : BatchReport := ⟨[outline], [⟨"b.js", ⟨"io", "unreadable", none⟩⟩]⟩
    report.Fits ∧ Survives BatchReport.decode report.encode report ∧
      outline.encode.get? "skipped_nodes" = none := by
  intro outline report
  have fits : report.Fits := by
    refine ⟨List.forall_mem_singleton.mpr ?_, List.forall_mem_singleton.mpr nofun⟩
    exact ⟨List.forall_mem_singleton.mpr (by decide : 1 < 2 ^ 64), nofun, by decide, by decide, nofun⟩
  exact ⟨fits, reports_survive.2.2.1 report fits, (reports_survive.2.2.2.2.1 outline).mpr rfl⟩

end SourceOutline
