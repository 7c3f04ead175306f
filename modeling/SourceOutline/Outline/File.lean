import SourceOutline.Language
import SourceOutline.Outline.Codec

/-! The outline of a file: its language and what of its source is shown. -/

namespace SourceOutline

/-- The outline of one source file. -/
structure FileOutline where
  /-- The language of the file. -/
  language : Language
  /-- The path of the file. -/
  path : String
  /-- The functions shown. -/
  functions : List FunctionOutline
  /-- The classes shown. -/
  classes : List ClassOutline
  /-- The imports. -/
  imports : List String
  /-- The exported names. -/
  exports : List String
  /-- How many functions are shown. -/
  functionCount : Nat
  /-- How many classes are shown. -/
  classCount : Nat
  /-- The parts that were left out. -/
  omissions : List Omission
  deriving DecidableEq

namespace ClassOutline

/-- The class without its private methods. -/
def withoutPrivate (owner : ClassOutline) : ClassOutline :=
  -- Nothing else of the class changes.
  { owner with methods := owner.methods.filter fun method => !method.isPrivate }

end ClassOutline

namespace ModuleOutline

/-- The outline without functions, classes and methods of private names. -/
def withoutPrivate (outline : ModuleOutline) : ModuleOutline :=
  -- Imports, exports and notes stay.
  { outline with
    functions := outline.functions.filter fun function => !function.isPrivate
    classes := (outline.classes.filter fun owner => !owner.isPrivate).map
      ClassOutline.withoutPrivate }

/-- What is shown of an outline. -/
def shown (outline : ModuleOutline) (includePrivate : Bool) : ModuleOutline :=
  -- Everything is shown when private names are wanted.
  if includePrivate then outline else outline.withoutPrivate

end ModuleOutline

namespace FileOutline

/-- The outline of a file in a known language. -/
def ofModule (outline : ModuleOutline) (path : String) (language : Language)
    (includePrivate : Bool) : FileOutline :=
  -- The counts are those of what is shown.
  let shown := outline.shown includePrivate
  { language := language
    path := path
    functions := shown.functions
    classes := shown.classes
    imports := shown.imports
    exports := shown.exports
    functionCount := shown.functions.length
    classCount := shown.classes.length
    omissions := shown.omissions }

/-- The outline of a file whose path tells its language. -/
def ofModuleAt (outline : ModuleOutline) (path : String) (includePrivate : Bool) :
    Except Failure FileOutline :=
  -- It fails exactly when the extension belongs to no supported language.
  match Language.ofPath path with
  | .ok language => .ok (ofModule outline path language includePrivate)
  | .error name => .error (.unsupportedLanguage name)

/-- How many functions and classes there are at the top. -/
def itemCount (outline : FileOutline) : Nat :=
  -- The counts of the record are taken as they are.
  outline.functionCount + outline.classCount

/-- The outline of a file as a value. -/
def encode (outline : FileOutline) : Json :=
  -- The list of notes is left out when there are none.
  .object ([
    ("language", outline.language.encode),
    ("file_path", .string outline.path),
    ("functions", .array (outline.functions.map FunctionOutline.encode)),
    ("classes", .array (outline.classes.map ClassOutline.encode)),
    ("imports", .strings outline.imports),
    ("exports", .strings outline.exports),
    ("total_functions", .nat outline.functionCount),
    ("total_classes", .nat outline.classCount)] ++
    if outline.omissions.isEmpty then []
    else [("skipped_nodes", .array (outline.omissions.map Omission.encode))])

/-- The fields of the outline of a file. -/
def shape {whole : Json} : Shape whole FileOutline :=
  -- The list of notes may be left out.
  mk <$> .required "language" Language.part
    <*> .required "file_path" .string
    <*> .required "functions" (.list FunctionOutline.decode)
    <*> .required "classes" (.list ClassOutline.decode)
    <*> .required "imports" (.list .string)
    <*> .required "exports" (.list .string)
    <*> .required "total_functions" .count
    <*> .required "total_classes" .count
    <*> .defaulted "skipped_nodes" [] (.list Omission.decode)

/-- The outline of a file read from a value. -/
def decode {whole : Json} : Decoder whole FileOutline := fun value small =>
  -- Records are never parts of tagged values.
  shape.decode "struct NormalizedModule" .outer value (Json.sizeOf_le small)

end FileOutline

end SourceOutline
