import SourceOutline.Proofs.Script.Offsets
import SourceOutline.Script.Extract

/-! The outline of a source every access to which is checked: whatever the tree says, none is a trespass. -/

namespace SourceOutline.Script

open Text

namespace Source

/-- The text of a stretch, on one line. -/
def readCollapsed (source : Source) (span : Span) : Except Trespass (Option String) := do
  let text ← sliceAt source.lines span
  return text.map fun text => String.ofList (collapse text)

/-- The text of a stretch, empty when it does not exist. -/
def readText (source : Source) (span : Span) : Except Trespass String := do
  let text ← sliceAt source.lines span
  return String.ofList (text.getD [])

/-- What the comment block above a declaration says. -/
def readDoc (source : Source) (span : Span) : Except Trespass DocComment := do
  let doc ← docBefore source.lines source.docWindow span.start.line
  return doc.getD {}

/-- The type of a note as written, if there is a note. -/
def readType (source : Source) : Option TypeNote → Except Trespass (Option String)
  | none => return none
  | some note =>
    match (note.inner.bind Node.span) <|> note.span with
    | none => return none
    | some span => do
      let text ← sliceAt source.lines span
      return text.bind fun text =>
        let bare := trim ((trim text).dropWhile (· == ':'))
        if bare.isEmpty then none else some (String.ofList (collapse bare))

/-- The source of a default value, which is read only when the tree does not give it. -/
def readDefault (source : Source) (node : Node) : Except Trespass String :=
  let named := if node.kind == "Identifier" then node.nameText else none
  match node.literalText <|> named, node.span with
  | some text, _ => return text
  | none, some span => do
    let text ← source.readCollapsed span
    return text.getD ""
  | none, none => return ""

/-- A parameter as listed and its type. -/
def readParameter (source : Source) : Pattern → Except Trespass (Option (String × Option String))
  | .identifier id => do
    let type ← source.readType id.type
    return some (id.name, type)
  | .withDefault left right => do
    match ← source.readParameter left with
    | none => return none
    | some inner =>
      let value ← source.readDefault right
      return some (inner.1 ++ "=" ++ value, inner.2)
  | .rest argument type => do
    match ← source.readParameter argument with
    | none => return none
    | some inner =>
      let own ← source.readType type
      return some ("..." ++ inner.1, own <|> inner.2)
  | .property inner => source.readParameter inner
  | .other => return none

/-- The outline of a function: its parameters and types are read before its documentation and text. -/
def readFunction (source : Source) (name : Option String) (definition : Function) (isExpression : Bool)
    (span : Span) : Except Trespass FunctionOutline := do
  let parameters ← definition.parameters.mapM source.readParameter
  let returns ← source.readType definition.returns
  let doc ← source.readDoc span
  let text ← source.readText span
  let start : FunctionOutline :=
    { name := name.getD anonymous, line := span.start.line, isAsync := definition.isAsync,
      isExpression := isExpression, returns := returns,
      description := doc.description, tags := doc.tags, text := text }
  return (parameters.filterMap id).foldl (fun outline listed => outline.addParameter listed.1 listed.2) start

/-- The name of a method, which is read only when the key is computed. -/
def readKeyName (source : Source) (key : Node) : Except Trespass (Option String) :=
  match key.resolvedName, key.span with
  | some name, _ => return some name
  | none, some span => do
    let text ← sliceAt source.lines span
    return text.map String.ofList
  | none, none => return none

/-- What a member adds to its class. -/
def readMember (source : Source) : Member → Except Trespass (Option MemberOutline)
  | .methodValue key value returns span => do
    let name ← source.readKeyName key
    let listed ← source.readFunction name { value with returns := value.returns <|> returns } false span
    return some (.method listed)
  | .method key parameters isAsync returns span => do
    let name ← source.readKeyName key
    let listed ← source.readFunction name ⟨none, parameters, isAsync, returns, span⟩ false span
    return some (.method listed)
  | .property key => return key.resolvedName.map .property
  | .other => return none

/-- The base class as listed, if there is one. -/
def readBaseName (source : Source) : Option Node → Except Trespass (Option String)
  | none => return none
  | some base =>
    if base.kind == "Identifier" then
      return base.nameText.map fun name => String.ofList (collapse name.toList)
    else
      match base.span with
      | none => return none
      | some span => source.readCollapsed span

/-- The outline of a class: its base and its members are read before its documentation and text. -/
def readClass (source : Source) (definition : Class) (span : Span) :
    Except Trespass (ClassOutline × List Omission) := do
  let name := (definition.id.map Identifier.name).getD anonymous
  let base ← source.readBaseName definition.base
  let decoded := decodeEach (name ++ ".") Member.decode definition.members
  let members ← decoded.1.mapM source.readMember
  let doc ← source.readDoc span
  let text ← source.readText span
  return ({ name := name
            description := doc.description
            tags := doc.tags
            bases := base.toList
            methods := (members.filterMap id).filterMap fun
              | .method function => some function
              | .property _ => none
            properties := (members.filterMap id).filterMap fun
              | .method _ => none
              | .property name => some name
            line := span.start.line
            text := text }, decoded.2)

/-- The outline of one variable, which is read only when a function is bound to it. -/
def readDeclarator (source : Source) (isExported : Bool) (whole : Option Span) (variable_ : Declarator) :
    Except Trespass ModuleOutline :=
  match variable_.target, variable_.function with
  | .identifier id, some definition => do
    let listed ← source.readFunction (some id.name) definition true (whole.getD variable_.span)
    return { functions := [{ listed with isExported := isExported }], exports := exportsOf isExported id.name }
  | .identifier id, none => return { exports := exportsOf isExported id.name }
  | _, _ => return {}

/-- The outline of a declaration of a function. -/
def readFunctionStatement (source : Source) (isExported : Bool) (definition : Function) (span : Span) :
    Except Trespass ModuleOutline := do
  let listed ← source.readFunction definition.name definition false span
  return { functions := [{ listed with isExported := isExported }], exports := exportsOf isExported listed.name }

/-- The outline of a declaration of a class. -/
def readClassStatement (source : Source) (isExported : Bool) (definition : Class) (span : Span) :
    Except Trespass ModuleOutline := do
  let listed ← source.readClass definition span
  return { classes := [{ listed.1 with isExported := isExported }]
           exports := exportsOf isExported listed.1.name
           omissions := listed.2 }

/-- The outline of a declaration of variables. -/
def readVariablesStatement (source : Source) (exported : Option Span) (declaration : VariableDeclaration) :
    Except Trespass ModuleOutline := do
  let whole :=
    if declaration.declarators.length = 1 then some (exported.getD declaration.span) else none
  let parts ← declaration.declarators.mapM (source.readDeclarator exported.isSome whole)
  return parts.foldr (· ++ ·) {}

/-- The outline of a default export. -/
def readDefaultStatement (source : Source) (declaration : DefaultExport) (span : Span) :
    Except Trespass ModuleOutline :=
  match declaration with
  | .function definition => do
    let listed ← source.readFunction definition.name definition false span
    return { functions := [{ listed with isExported := true }], exports := [definition.name.getD defaultName] }
  | .arrow definition => do
    let listed ← source.readFunction none definition true span
    return { functions := [{ listed with isExported := true }], exports := [defaultName] }
  | .classDef definition => do
    let listed ← source.readClass definition span
    return { classes := [{ listed.1 with isExported := true }]
             exports := [definition.name.getD defaultName]
             omissions := listed.2 }
  | .other => return { exports := [defaultName] }

/-- The outline of a statement. -/
def readStatement (source : Source) (exported : Option Span) : Statement → Except Trespass ModuleOutline
  | .function definition =>
    source.readFunctionStatement exported.isSome definition (exported.getD definition.span)
  | .variables declaration => source.readVariablesStatement exported declaration
  | .classDef definition =>
    source.readClassStatement exported.isSome definition (exported.getD definition.span)
  | .importNames declaration => return { imports := [declaration.described] }
  | .exportNamed declaration names span => do
    let listed ← match declaration with
      | some inner => source.readStatement (some span) inner
      | none => pure {}
    return listed ++ { exports := names.filterMap fun name => name.bind Node.resolvedName }
  | .exportDefault declaration span => source.readDefaultStatement declaration span
  | .other => return {}

/-- The outline of a statement that is still a value. -/
def readNode (source : Source) (value : Json) : Except Trespass ModuleOutline :=
  match Statement.decode .outer value with
  | .ok decoded => source.readStatement none decoded
  | .error error => return { omissions := [undecoded "" value error] }

end Source

/-- The outline of a text with a given tree, from cutting its lines on. -/
def readOutline (text : List Char) (docWindow : Nat) (tree : SyntaxTree) : Except Trespass ModuleOutline := do
  let lines ← linesFrom text 0 0 text
  let parts ← tree.body.mapM (Source.readNode ⟨lines, docWindow⟩)
  return parts.foldr (· ++ ·) {}

/-- When no part is a trespass, neither is the list of them. -/
theorem mapM_eq_ok {α β : Type} {read : α → Except Trespass β} {value : α → β}
    (each : ∀ part, read part = .ok (value part)) (parts : List α) :
    parts.mapM read = .ok (parts.map value) := by
  rw [funext each]
  exact List.mapM_pure

namespace Source

variable (source : Source)

/-- The text of a stretch is read on one line without trespass. -/
theorem readCollapsed_eq (span : Span) : source.readCollapsed span = .ok (source.collapsed span) := by
  rw [readCollapsed, sliceAt_eq]
  rfl

/-- The text of a stretch is read without trespass. -/
theorem readText_eq (span : Span) : source.readText span = .ok (source.textAt span) := by
  rw [readText, sliceAt_eq]
  rfl

/-- What documents a declaration is read without trespass. -/
theorem readDoc_eq (span : Span) : source.readDoc span = .ok (source.docOf span) := by
  rw [readDoc, docBefore_eq]
  rfl

/-- A type is read without trespass. -/
theorem readType_eq (note : Option TypeNote) : source.readType note = .ok (note.bind source.typeText) := by
  cases note with
  | none => rfl
  | some note =>
    rw [readType, Option.bind_some, typeText]
    cases note.inner.bind Node.span <|> note.span with
    | none => rfl
    | some span =>
      simp only [sliceAt_eq, bind, Except.bind]
      rfl

/-- A default value is read without trespass. -/
theorem readDefault_eq (node : Node) : source.readDefault node = .ok (source.defaultText node) := by
  rw [readDefault, defaultText]
  simp only [readCollapsed_eq]
  cases node.literalText with
  | some text => rfl
  | none =>
    cases (if node.kind == "Identifier" then node.nameText else none) with
    | some text => rfl
    | none => cases node.span <;> rfl

/-- A parameter is read without trespass, however deep its pattern is. -/
theorem readParameter_eq (pattern : Pattern) :
    source.readParameter pattern = .ok (source.parameter pattern) := by
  induction pattern with
  | identifier id =>
    rw [readParameter, readType_eq]
    rfl
  | withDefault left right ih =>
    rw [readParameter, ih, parameter, readDefault_eq]
    cases source.parameter left <;> rfl
  | rest argument type ih =>
    rw [readParameter, ih, parameter, readType_eq]
    cases source.parameter argument <;> rfl
  | property inner ih => rwa [readParameter, parameter]
  | other => rw [readParameter, parameter]; rfl

/-- A function is read without trespass. -/
theorem readFunction_eq (name : Option String) (definition : Function) (isExpression : Bool) (span : Span) :
    source.readFunction name definition isExpression span =
      .ok (source.function name definition isExpression span) := by
  rw [readFunction, mapM_eq_ok source.readParameter_eq, readType_eq, readDoc_eq, readText_eq, function]
  simp only [bind, Except.bind, pure, Except.pure, List.filterMap_map, Function.id_comp]

/-- The name of a method is read without trespass. -/
theorem readKeyName_eq (key : Node) : source.readKeyName key = .ok (source.keyName key) := by
  rw [readKeyName, keyName]
  simp only [sliceAt_eq]
  cases key.resolvedName with
  | some name => rfl
  | none => cases key.span <;> rfl

/-- A member of a class is read without trespass. -/
theorem readMember_eq (member : Member) : source.readMember member = .ok (source.member member) := by
  cases member with
  | methodValue key value returns span =>
    rw [readMember, readKeyName_eq]
    simp only [bind, Except.bind, readFunction_eq]
    rfl
  | method key parameters isAsync returns span =>
    rw [readMember, readKeyName_eq]
    simp only [bind, Except.bind, readFunction_eq]
    rfl
  | property key => rfl
  | other => rfl

/-- The base of a class is read without trespass. -/
theorem readBaseName_eq (base : Option Node) : source.readBaseName base = .ok (base.bind source.baseName) := by
  cases base with
  | none => rfl
  | some base =>
    rw [readBaseName, Option.bind_some, baseName]
    simp only [readCollapsed_eq]
    split
    · rfl
    · cases base.span <;> rfl

/-- A class is read without trespass. -/
theorem readClass_eq (definition : Class) (span : Span) :
    source.readClass definition span = .ok (source.classDef definition span) := by
  rw [readClass, readBaseName_eq, readDoc_eq, readText_eq]
  simp only [bind, Except.bind, mapM_eq_ok source.readMember_eq, List.filterMap_map, Function.id_comp]
  rfl

/-- A variable is read without trespass. -/
theorem readDeclarator_eq (isExported : Bool) (whole : Option Span) (variable_ : Declarator) :
    source.readDeclarator isExported whole variable_ = .ok (source.declarator isExported whole variable_) := by
  rw [readDeclarator, declarator]
  simp only [readFunction_eq]
  cases variable_.target with
  | identifier id => cases variable_.function <;> rfl
  | withDefault | rest | property | other => rfl

/-- A declaration of a function is read without trespass. -/
theorem readFunctionStatement_eq (isExported : Bool) (definition : Function) (span : Span) :
    source.readFunctionStatement isExported definition span =
      .ok (source.functionStatement isExported definition span) := by
  rw [readFunctionStatement, readFunction_eq]
  rfl

/-- A declaration of a class is read without trespass. -/
theorem readClassStatement_eq (isExported : Bool) (definition : Class) (span : Span) :
    source.readClassStatement isExported definition span =
      .ok (source.classStatement isExported definition span) := by
  rw [readClassStatement, readClass_eq]
  rfl

/-- A declaration of variables is read without trespass. -/
theorem readVariablesStatement_eq (exported : Option Span) (declaration : VariableDeclaration) :
    source.readVariablesStatement exported declaration =
      .ok (source.variablesStatement exported declaration) := by
  rw [readVariablesStatement, mapM_eq_ok (source.readDeclarator_eq _ _)]
  rfl

/-- A default export is read without trespass. -/
theorem readDefaultStatement_eq (declaration : DefaultExport) (span : Span) :
    source.readDefaultStatement declaration span = .ok (source.defaultStatement declaration span) := by
  cases declaration with
  | function definition | arrow definition =>
    rw [readDefaultStatement, readFunction_eq]
    rfl
  | classDef definition =>
    rw [readDefaultStatement, readClass_eq]
    rfl
  | other => rfl

/-- A statement is read without trespass, also inside of exports. -/
theorem readStatement_eq (exported : Option Span) (declared : Statement) :
    source.readStatement exported declared = .ok (source.statement exported declared) := by
  rcases declared with definition | declaration | definition | _ | ⟨_ | inner, names, span⟩ | _ | _ <;>
    rw [readStatement, statement]
  · exact source.readFunctionStatement_eq ..
  · exact source.readVariablesStatement_eq ..
  · exact source.readClassStatement_eq ..
  · rfl
  · rfl
  · -- An export holds one statement, which holds no further ones unless it is an export too.
    have held := readStatement_eq (some span) inner
    rw [held]
    rfl
  · exact source.readDefaultStatement_eq ..
  · rfl

/-- A statement that is still a value is read without trespass. -/
theorem readNode_eq (value : Json) : source.readNode value = .ok (source.node value) := by
  rw [readNode, node]
  cases Statement.decode .outer value with
  | ok decoded => exact source.readStatement_eq none decoded
  | error error => rfl

end Source

/-- No tree leads to a trespass: an outline is made of every source, in every window, whatever the tree
says. No stretch and no search for documentation is one on any lines, and columns are boundaries. -/
theorem readOutline_eq_ok (text : List Char) (docWindow : Nat) (tree : SyntaxTree) :
    readOutline text docWindow tree = .ok (outline text docWindow tree) ∧
    (∀ lines span, sliceAt lines span = .ok (slice lines span)) ∧
    (∀ lines window line, docBefore lines window line = .ok (docAbove lines window line)) ∧
    ∀ line column,
      partAt (columnOffset line column) line = .ok (takeColumns column line, dropColumns column line) := by
  refine ⟨?_, sliceAt_eq, docBefore_eq, partAt_columnOffset⟩
  rw [readOutline, linesFrom_zero]
  simp only [bind, Except.bind, mapM_eq_ok (Source.readNode_eq _), pure, Except.pure]
  rfl

end SourceOutline.Script
