import SourceOutline.Outline.Record

/-! Outlines written as values and read back from them. -/

namespace SourceOutline

/-- A map of texts as a value. -/
def NameMap.encode (map : NameMap String) : Json :=
  -- The pairs keep their order.
  .object (map.entries.map fun entry => (entry.1, .string entry.2))

/-- A function as a value. -/
def FunctionOutline.encode (function : FunctionOutline) : Json :=
  -- Every field is written, absent texts as null.
  .object [
    ("name", .string function.name),
    ("parameters", .strings function.parameters),
    ("parameter_type_annotations", function.annotations.encode),
    ("return_type_annotation", .stringOrNull function.returns),
    ("doc_comment", .stringOrNull function.description),
    ("doc_tags", function.tags.encode),
    ("is_async", .bool function.isAsync),
    ("is_arrow_or_anonymous_form", .bool function.isExpression),
    ("is_exported", .bool function.isExported),
    ("source_line", .nat function.line),
    ("source_text", .string function.text)]

/-- The fields of a function. -/
def FunctionOutline.shape {whole : Json} : Shape whole FunctionOutline :=
  -- The order is the one in which they are written.
  mk <$> .required "name" .string
    <*> .required "parameters" (.list .string)
    <*> .required "parameter_type_annotations" (.map .string)
    <*> .optional "return_type_annotation" .string
    <*> .optional "doc_comment" .string
    <*> .required "doc_tags" (.map .string)
    <*> .required "is_async" .bool
    <*> .required "is_arrow_or_anonymous_form" .bool
    <*> .required "is_exported" .bool
    <*> .required "source_line" .count
    <*> .required "source_text" .string

/-- A function read from a value. -/
def FunctionOutline.decode {whole : Json} : Decoder whole FunctionOutline := fun value small =>
  -- Records are never parts of tagged values.
  shape.decode "struct FunctionRecord" .outer value (Json.sizeOf_le small)

/-- A class as a value. -/
def ClassOutline.encode (owner : ClassOutline) : Json :=
  -- Every field is written, absent texts as null.
  .object [
    ("name", .string owner.name),
    ("doc_comment", .stringOrNull owner.description),
    ("doc_tags", owner.tags.encode),
    ("base_types", .strings owner.bases),
    ("methods", .array (owner.methods.map FunctionOutline.encode)),
    ("properties", .strings owner.properties),
    ("is_exported", .bool owner.isExported),
    ("source_line", .nat owner.line),
    ("source_text", .string owner.text)]

/-- The fields of a class. -/
def ClassOutline.shape {whole : Json} : Shape whole ClassOutline :=
  -- The order is the one in which they are written.
  mk <$> .required "name" .string
    <*> .optional "doc_comment" .string
    <*> .required "doc_tags" (.map .string)
    <*> .required "base_types" (.list .string)
    <*> .required "methods" (.list FunctionOutline.decode)
    <*> .required "properties" (.list .string)
    <*> .required "is_exported" .bool
    <*> .required "source_line" .count
    <*> .required "source_text" .string

/-- A class read from a value. -/
def ClassOutline.decode {whole : Json} : Decoder whole ClassOutline := fun value small =>
  -- Records are never parts of tagged values.
  shape.decode "struct ClassRecord" .outer value (Json.sizeOf_le small)

/-- A note read from a value. -/
def Omission.decode {whole : Json} : Decoder whole Omission := fun value small =>
  -- Records are never parts of tagged values.
  shape.decode "struct SkipReason" .outer value (Json.sizeOf_le small)

namespace ModuleOutline

/-- An outline as a value. -/
def encode (outline : ModuleOutline) : Json :=
  -- What was left out stands in a record of its own.
  .object [
    ("functions", .array (outline.functions.map FunctionOutline.encode)),
    ("classes", .array (outline.classes.map ClassOutline.encode)),
    ("imports", .strings outline.imports),
    ("exports", .strings outline.exports),
    ("stats", .object [("skipped_nodes", .array (outline.omissions.map Omission.encode))])]

/-- The record of what was left out, read from a value. -/
def decodeOmissions {whole : Json} : Decoder whole (List Omission) := fun value small =>
  -- The record has a single field.
  (Shape.required "skipped_nodes" (.list Omission.decode)).decode
    "struct ExtractionStats" .outer value (Json.sizeOf_le small)

/-- The fields of an outline. -/
def shape {whole : Json} : Shape whole ModuleOutline :=
  -- The record of what was left out may itself be left out.
  mk <$> .required "functions" (.list FunctionOutline.decode)
    <*> .required "classes" (.list ClassOutline.decode)
    <*> .required "imports" (.list .string)
    <*> .required "exports" (.list .string)
    <*> .defaulted "stats" [] decodeOmissions

/-- An outline read from a value. -/
def decode (value : Json) : Except DecodeError ModuleOutline :=
  -- Every part is smaller than the whole.
  shape.decode "struct ModuleParseResult" .outer value (Json.sizeOf_le_self value)

end ModuleOutline

end SourceOutline
