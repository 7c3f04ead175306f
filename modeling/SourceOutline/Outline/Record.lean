import SourceOutline.Failure
import SourceOutline.NameMap

/-! The outline of a source: its functions, classes, imports and exports. -/

namespace SourceOutline

/-- What is known of a function or a method. -/
structure FunctionOutline where
  /-- The declared name. -/
  name : String
  /-- The parameters in order. -/
  parameters : List String := []
  /-- The type given to each parameter that has one. -/
  annotations : NameMap String := .empty
  /-- The type of the result. -/
  returns : Option String := none
  /-- The free text of the documentation. -/
  description : Option String := none
  /-- The text of each tag of the documentation. -/
  tags : NameMap String := .empty
  /-- The function is asynchronous. -/
  isAsync : Bool := false
  /-- The function is an expression that was bound to a name or exported. -/
  isExpression : Bool := false
  /-- The function is exported. -/
  isExported : Bool := false
  /-- The line where it starts, counted from one. -/
  line : Nat
  /-- The source of its definition. -/
  text : String := ""
  deriving DecidableEq

/-- What is known of a class. -/
structure ClassOutline where
  /-- The declared name. -/
  name : String
  /-- The free text of the documentation. -/
  description : Option String := none
  /-- The text of each tag of the documentation. -/
  tags : NameMap String := .empty
  /-- The classes it is derived from. -/
  bases : List String := []
  /-- The methods in order. -/
  methods : List FunctionOutline := []
  /-- The names of the properties in order. -/
  properties : List String := []
  /-- The class is exported. -/
  isExported : Bool := false
  /-- The line where it starts, counted from one. -/
  line : Nat
  /-- The source of its definition. -/
  text : String := ""
  deriving DecidableEq

/-- What is known of a source. -/
structure ModuleOutline where
  /-- The functions at the top, methods not among them. -/
  functions : List FunctionOutline := []
  /-- The classes at the top. -/
  classes : List ClassOutline := []
  /-- The imports, one text each. -/
  imports : List String := []
  /-- The exported names. -/
  exports : List String := []
  /-- The parts that were left out. -/
  omissions : List Omission := []
  deriving DecidableEq

/-- A name that starts with an underscore is private. -/
def isPrivateName (name : String) : Bool :=
  -- The empty name is not private.
  name.toList.head? == some '_'

namespace FunctionOutline

/-- The function with one more parameter, whose type is noted unless it is empty. -/
def addParameter (function : FunctionOutline) (name : String) (type : Option String) :
    FunctionOutline :=
  -- A later parameter of the same name replaces the type of the earlier one.
  let annotations := match type with
    | some text =>
      if text.isEmpty then function.annotations else function.annotations.insert name text
    | none => function.annotations
  { function with parameters := function.parameters ++ [name], annotations := annotations }

/-- A parameter is listed behind those from before. -/
@[simp] theorem parameters_addParameter (function : FunctionOutline) (name : String)
    (type : Option String) :
    (function.addParameter name type).parameters = function.parameters ++ [name] := rfl

/-- A parameter without type leaves the types as they are. -/
@[simp] theorem annotations_addParameter_none (function : FunctionOutline) (name : String) :
    (function.addParameter name none).annotations = function.annotations := rfl

/-- The function has a private name. -/
def isPrivate (function : FunctionOutline) : Bool := isPrivateName function.name

end FunctionOutline

namespace ClassOutline

/-- The class has a private name. -/
def isPrivate (owner : ClassOutline) : Bool := isPrivateName owner.name

/-- The first method of a name. -/
def method? (owner : ClassOutline) (name : String) : Option FunctionOutline :=
  -- Methods may share a name.
  owner.methods.find? fun method => method.name == name

end ClassOutline

namespace ModuleOutline

/-- The outline of two sources one after the other. -/
def append (first second : ModuleOutline) : ModuleOutline where
  functions := first.functions ++ second.functions
  classes := first.classes ++ second.classes
  imports := first.imports ++ second.imports
  exports := first.exports ++ second.exports
  omissions := first.omissions ++ second.omissions

instance : Append ModuleOutline := ⟨append⟩

/-- The functions of the first source come first. -/
@[simp] theorem functions_append (first second : ModuleOutline) :
    (first ++ second).functions = first.functions ++ second.functions := rfl

/-- The classes of the first source come first. -/
@[simp] theorem classes_append (first second : ModuleOutline) :
    (first ++ second).classes = first.classes ++ second.classes := rfl

/-- The imports of the first source come first. -/
@[simp] theorem imports_append (first second : ModuleOutline) :
    (first ++ second).imports = first.imports ++ second.imports := rfl

/-- The exported names of the first source come first. -/
@[simp] theorem exports_append (first second : ModuleOutline) :
    (first ++ second).exports = first.exports ++ second.exports := rfl

/-- The notes on the first source come first. -/
@[simp] theorem omissions_append (first second : ModuleOutline) :
    (first ++ second).omissions = first.omissions ++ second.omissions := rfl

/-- The empty outline adds nothing in front. -/
@[simp] theorem empty_append (outline : ModuleOutline) : ({} : ModuleOutline) ++ outline = outline :=
  -- Each of the five lists is continued from nothing.
  rfl

/-- The empty outline adds nothing behind. -/
@[simp] theorem append_empty (outline : ModuleOutline) : outline ++ ({} : ModuleOutline) = outline := by
  -- Each of the five lists is continued by nothing.
  show append outline {} = outline
  simp [append]

/-- It does not matter in which order sources are joined. -/
theorem append_assoc (first second third : ModuleOutline) :
    first ++ second ++ third = first ++ (second ++ third) := by
  -- Each of the five lists is joined on its own.
  show append (append first second) third = append first (append second third)
  simp [append]

/-- How many functions and classes there are at the top. -/
def itemCount (outline : ModuleOutline) : Nat :=
  -- Methods are not counted.
  outline.functions.length + outline.classes.length

/-- There is neither a function nor a class. -/
def isEmpty (outline : ModuleOutline) : Bool := outline.itemCount == 0

/-- The first function of a name. -/
def function? (outline : ModuleOutline) (name : String) : Option FunctionOutline :=
  -- Functions may share a name.
  outline.functions.find? fun function => function.name == name

/-- The first class of a name. -/
def class? (outline : ModuleOutline) (name : String) : Option ClassOutline :=
  -- Classes may share a name.
  outline.classes.find? fun owner => owner.name == name

end ModuleOutline

end SourceOutline
