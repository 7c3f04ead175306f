import SourceOutline.Outline.File

/-! The outlines of many files and the files that have none. -/

namespace SourceOutline

/-- A file without an outline. -/
structure OmittedFile where
  /-- The path of the file. -/
  path : String
  /-- Why it has none. -/
  reason : Omission
  deriving DecidableEq

/-- What became of a list of files. -/
structure BatchReport where
  /-- The outlines in the order of the files. -/
  results : List FileOutline := []
  /-- The files without outline in their order. -/
  omitted : List OmittedFile := []
  deriving DecidableEq

/-- Counts over a report. -/
structure BatchSummary where
  /-- How many files have an outline. -/
  parsed : Nat
  /-- How many files have none. -/
  omitted : Nat
  /-- How many functions are shown. -/
  functions : Nat
  /-- How many classes are shown. -/
  classes : Nat
  /-- How many notes there are in the outlines. -/
  notes : Nat
  deriving DecidableEq

namespace OmittedFile

/-- A file without outline as a value. -/
def encode (file : OmittedFile) : Json :=
  -- The path stands in front of the reason.
  .object [("path", .string file.path), ("reason", file.reason.encode)]

/-- A file without outline read from a value. -/
def decode {whole : Json} : Decoder whole OmittedFile := fun value small =>
  -- Both fields must be there.
  (mk <$> .required "path" .path <*> .required "reason" Omission.decode : Shape whole OmittedFile).decode
    "struct SkippedFile" .outer value (Json.sizeOf_le small)

end OmittedFile

namespace BatchReport

/-- The report on two lists of files one after the other. -/
def append (first second : BatchReport) : BatchReport where
  results := first.results ++ second.results
  omitted := first.omitted ++ second.omitted

instance : Append BatchReport := ⟨append⟩

/-- The outlines of the first list come first. -/
@[simp] theorem results_append (first second : BatchReport) :
    (first ++ second).results = first.results ++ second.results := rfl

/-- The files without outline of the first list come first. -/
@[simp] theorem omitted_append (first second : BatchReport) :
    (first ++ second).omitted = first.omitted ++ second.omitted := rfl

/-- It does not matter in which order lists of files are joined. -/
theorem append_assoc (first second third : BatchReport) :
    first ++ second ++ third = first ++ (second ++ third) := by
  -- Outlines and files without outline are joined on their own.
  show append (append first second) third = append first (append second third)
  simp [append]

/-- The report on a single file. -/
def ofFile (path : String) (outcome : Except Failure FileOutline) : BatchReport :=
  -- A failure is noted and goes no further.
  match outcome with
  | .ok outline => { results := [outline] }
  | .error failure => { omitted := [⟨path, .ofFailure failure⟩] }

/-- What the results of a report count together. -/
def total (report : BatchReport) (count : FileOutline → Nat) : Nat :=
  report.results.foldl (fun sum outline => sum + count outline) 0

/-- The counts over a report. -/
def summary (report : BatchReport) : BatchSummary where
  parsed := report.results.length
  omitted := report.omitted.length
  functions := report.total FileOutline.functionCount
  classes := report.total FileOutline.classCount
  notes := report.total fun outline => outline.omissions.length

/-- A report as a value. -/
def encode (report : BatchReport) : Json :=
  -- Both lists are always written.
  .object [
    ("results", .array (report.results.map FileOutline.encode)),
    ("skipped", .array (report.omitted.map OmittedFile.encode))]

/-- A report read from a value. -/
def decode (value : Json) : Except DecodeError BatchReport :=
  -- Both lists must be there.
  (mk <$> .required "results" (.list FileOutline.decode)
      <*> .required "skipped" (.list OmittedFile.decode) : Shape value BatchReport).decode
    "struct BatchReport" .outer value (Json.sizeOf_le_self value)

end BatchReport

/-- Counts as a value. -/
def BatchSummary.encode (summary : BatchSummary) : Json :=
  -- Every count is written.
  .object [
    ("files_parsed", .nat summary.parsed),
    ("files_skipped", .nat summary.omitted),
    ("functions", .nat summary.functions),
    ("classes", .nat summary.classes),
    ("skipped_nodes", .nat summary.notes)]

end SourceOutline
