import SourceOutline.Proofs.Script.Exports
import SourceOutline.Proofs.Script.Isolation
import SourceOutline.Proofs.Script.Positions

/-! The names that functions, classes and methods are listed under, and when one of them is empty. -/

namespace SourceOutline.Script

open Text

section Covering

/-- A place stands in front of another one on the same line or on a line above it, or is the same. -/
instance : LE Position :=
  ⟨fun first second => first.line < second.line ∨ first.line = second.line ∧ first.column ≤ second.column⟩

instance (first second : Position) : Decidable (first ≤ second) := inferInstanceAs (Decidable (_ ∨ _))

/-- A stretch covers some of a source: between its ends stands a text that is not empty, and whose own ends part
no terminator. -/
def Span.Covers (span : Span) (text : List Char) : Prop :=
  ∃ first last, first < last ∧ last ≤ text.length ∧ ¬PartsReturn text first ∧ ¬PartsReturn text last ∧
    span.start ≤ positionAt text first ∧ positionAt text last ≤ span.stop

/-- A wider part of a line holds what a narrower one holds. -/
theorem dropColumns_takeColumns_ne_nil {start stop : Nat} {line : List Char}
    (some_text : dropColumns start (takeColumns stop line) ≠ []) {earlier later : Nat} (before : earlier ≤ start)
    (behind : stop ≤ later) : dropColumns earlier (takeColumns later line) ≠ [] := by
  induction line generalizing start stop earlier later with
  | nil => cases stop <;> cases start <;> simp [takeColumns, dropColumns] at some_text
  | cons c rest ih =>
    cases stop with
    | zero => cases start <;> simp [takeColumns, dropColumns] at some_text
    | succ stop =>
      obtain ⟨later, rfl⟩ := Nat.exists_eq_add_of_le' (Nat.le_trans (Nat.succ_pos stop) behind)
      rw [takeColumns]
      cases earlier with
      | zero => simp [dropColumns]
      | succ earlier =>
        -- The first character is dropped from both parts.
        obtain ⟨start, rfl⟩ := Nat.exists_eq_add_of_le' (Nat.le_trans (Nat.succ_pos earlier) before)
        exact ih some_text (by omega) (by omega)

/-- Nothing stands between a column and itself. -/
theorem dropColumns_takeColumns_self (column : Nat) (line : List Char) :
    dropColumns column (takeColumns column line) = [] := by
  induction line generalizing column with
  | nil => cases column <;> rfl
  | cons c rest ih =>
    cases column with
    | zero => rfl
    | succ column => exact ih _

/-- Texts of several lines hold a line break. -/
theorem sliceLines_ne_nil (start stop : Nat) {first second : List Char} {more : List (List Char)} :
    sliceLines start stop (first :: second :: more) ≠ [] := by
  intro empty
  have count := congrArg List.length empty
  simp only [sliceLines, List.intercalate, List.length_flatten, List.length_nil] at count
  cases shape : (second :: more).dropLast <;> simp [shape, List.intersperse] at count

/-- Unified terminators leave some of every text. -/
theorem unifyTerminators_ne_nil {cs : List Char} (some_text : cs ≠ []) : unifyTerminators cs ≠ [] := by
  induction cs with
  | nil => exact absurd rfl some_text
  | cons c rest ih =>
    rw [unifyTerminators_cons]
    split
    · rename_i pair
      exact ih fun empty => by simp [empty] at pair
    · exact List.cons_ne_nil _ _

/-- The lines that a stretch covers, when they exist. -/
theorem slice_eq_some {lines : List (List Char)} {span : Span} {text : List Char}
    (found : slice lines span = some text) :
    span.start.line ≠ 0 ∧ span.start.line ≤ span.stop.line ∧ span.stop.line ≤ lines.length ∧
      sliceLines span.start.column span.stop.column
        ((lines.drop (span.start.line - 1)).take (span.stop.line - span.start.line + 1)) = text := by
  unfold slice at found
  split at found
  · cases found
  · rename_i exist
    simp only [Bool.or_eq_true, decide_eq_true_eq, not_or, Nat.not_lt] at exist
    exact ⟨exist.1.1, exist.1.2, exist.2, Option.some.inj found⟩

/-- A stretch that covers some of a source has a text when its lines exist. -/
theorem Span.Covers.slice_ne {span : Span} {text : List Char} (covers : span.Covers text) :
    slice (sourceLines text) span ≠ some [] := by
  obtain ⟨first, last, ordered, within, apart, apart', before, behind⟩ := covers
  have some_text : (text.take last).drop first ≠ [] := by
    simp only [ne_eq, List.drop_eq_nil_iff, List.length_take]
    omega
  have inner := (slice_positionAt text).1 first last (Nat.le_of_lt ordered) within apart apart'
  obtain ⟨above, forward, exist, narrow⟩ := slice_eq_some inner
  intro empty
  obtain ⟨above', forward', exist', wide⟩ := slice_eq_some empty
  generalize positionAt text first = start, positionAt text last = stop at *
  obtain ⟨outer, final⟩ := span
  simp only at above forward exist narrow above' forward' exist' wide before behind
  generalize sourceLines text = lines at *
  obtain ⟨line, rest, shape⟩ : ∃ line rest, lines.drop (outer.line - 1) = line :: rest := by
    refine List.exists_cons_of_ne_nil ?_
    simp only [ne_eq, List.drop_eq_nil_iff]
    omega
  rcases Nat.lt_or_eq_of_le forward' with several | single
  · -- Between two lines stands a line break.
    obtain ⟨next, more, below⟩ : ∃ next more, rest.take (final.line - outer.line) = next :: more := by
      refine List.exists_cons_of_ne_nil ?_
      have count := congrArg List.length shape
      simp only [List.length_drop, List.length_cons] at count
      simp only [ne_eq, ← List.length_eq_zero_iff, List.length_take]
      omega
    rw [shape, List.take_succ_cons, below] at wide
    exact sliceLines_ne_nil _ _ wide
  · -- Within a single line columns tell what is covered.
    have same : start.line = outer.line ∧ stop.line = outer.line := by
      rcases before with lower | ⟨row, _⟩ <;> rcases behind with lower' | ⟨row', _⟩ <;> omega
    have ordered : outer.column ≤ start.column ∧ stop.column ≤ final.column := by
      rcases before with lower | ⟨_, column⟩ <;> rcases behind with lower' | ⟨_, column'⟩ <;> omega
    simp only [same.1, same.2, ← single, Nat.sub_self, Nat.zero_add, shape, List.take_succ_cons, List.take_zero,
      sliceLines, sliceLine] at narrow wide
    have some_part := narrow ▸ unifyTerminators_ne_nil some_text
    have forward : start.column ≤ stop.column := by
      by_contra reversed
      refine some_part ?_
      rw [Nat.max_eq_right (by omega)]
      exact dropColumns_takeColumns_self _ _
    exact dropColumns_takeColumns_ne_nil some_part ordered.1 (by omega) wide

end Covering

/-- The declared name of the function that is bound to a variable, if it is one that is listed. -/
def Declarator.functionName (variable_ : Declarator) : Option (Option String) :=
  match variable_.target with
  | .identifier id => variable_.function.map fun _ => some id.name
  | _ => none

/-- The declared names of the functions that a statement defines, where a function may have none. -/
def Statement.functionNames : Statement → List (Option String)
  | .function definition => [definition.name]
  | .variables declaration => declaration.declarators.filterMap Declarator.functionName
  | .exportNamed (some inner) _ _ => inner.functionNames
  | .exportDefault (.function definition) _ => [definition.name]
  | .exportDefault (.arrow _) _ => [none]
  | _ => []

/-- The key of a member that is a method. -/
def Member.methodKey : Member → Option Node
  | .methodValue key .. => some key
  | .method key .. => some key
  | _ => none

/-- The keys of the methods of a class. -/
def Class.methodKeys (definition : Class) : List Node :=
  definition.members.filterMap fun member => (Member.decode member).toOption.bind Member.methodKey

namespace SyntaxTree

/-- The statements of a program that are read. -/
def declarations (tree : SyntaxTree) : List Statement :=
  tree.body.filterMap fun node => (Statement.decode .outer node).toOption

/-- The declared names of the functions of a program. -/
def functionNames (tree : SyntaxTree) : List (Option String) := tree.declarations.flatMap Statement.functionNames

/-- The classes of a program. -/
def classes (tree : SyntaxTree) : List Class := tree.declarations.filterMap Statement.definedClass

end SyntaxTree

/-- A key is the literal of the empty text. -/
def Node.IsEmptyText (key : Node) : Prop :=
  (key.kind = "Literal" ∨ key.kind = "StringLiteral") ∧ key.value = some (.string "")

/-- A key is no identifier without characters, and its location covers some of a source. -/
structure Node.IsLegible (text : List Char) (key : Node) : Prop where
  /-- Identifiers are not empty. -/
  name : key.kind = "Identifier" → key.nameText ≠ some ""
  /-- The location, if there is one, covers a character. -/
  covers : ∀ span, key.span = some span → span.Covers text

/-- A program whose identifiers are not empty and whose locations cover some of a source, as far as the names of
its functions, classes and methods depend on them. -/
structure SyntaxTree.IsLegible (text : List Char) (tree : SyntaxTree) : Prop where
  /-- Functions have no empty names. -/
  functions : some "" ∉ tree.functionNames
  /-- Classes have no empty names. -/
  classes : ∀ definition ∈ tree.classes, definition.name ≠ some ""
  /-- The keys of methods are legible. -/
  keys : ∀ definition ∈ tree.classes, ∀ key ∈ definition.methodKeys, key.IsLegible text

/-- The name of a method is the one of its key: a placeholder where the key tells neither a name nor a location, and
empty only for the literal of the empty text. -/
structure NamesMethod (key : Node) (method : FunctionOutline) : Prop where
  /-- Without a name and a location the placeholder is taken. -/
  nameless : key.resolvedName = none → key.span = none → method.name = anonymous
  /-- No other key makes the name empty. -/
  empty : method.name = "" ↔ key.IsEmptyText

/-- The name of a class is its declared name or else the placeholder, and so is it for its methods. -/
structure NamesClass (definition : Class) (owner : ClassOutline) : Prop where
  /-- The placeholder is taken for a class without a name. -/
  name : owner.name = definition.name.getD anonymous
  /-- The name is not empty. -/
  nonempty : owner.name ≠ ""
  /-- The methods are named by their keys. -/
  methods : List.Forall₂ NamesMethod definition.methodKeys owner.methods

/-- A declared name or else the placeholder is not empty when the declared name is not. -/
theorem getD_anonymous_ne_empty {name : Option String} (legible : name ≠ some "") : name.getD anonymous ≠ "" := by
  cases name with
  | none => decide
  | some text => exact fun empty => legible (congrArg some empty)

namespace Source

variable {text : List Char} {window : Nat}

/-- The text at the location of a legible key is not empty. -/
theorem textOf_key_ne {key : Node} (legible : key.IsLegible text) :
    (key.span.bind fun span => (slice (sourceLines text) span).map String.ofList) ≠ some "" := by
  intro empty
  obtain ⟨span, located, found⟩ := Option.bind_eq_some_iff.mp empty
  obtain ⟨covered, sliced, same⟩ := Option.map_eq_some_iff.mp found
  have nothing : covered = [] := by simpa using congrArg String.toList same
  exact (legible.covers span located).slice_ne (by rw [sliced, nothing])

/-- The name of a legible key is empty only for the literal of the empty text. -/
theorem keyName_eq_empty_iff {key : Node} (legible : key.IsLegible text) :
    keyName ⟨sourceLines text, window⟩ key = some "" ↔ key.IsEmptyText := by
  have located := textOf_key_ne legible
  have private_ : ∀ name : Option String, name.map ("#" ++ ·) ≠ some "" := by
    intro name empty
    obtain ⟨plain, -, same⟩ := Option.map_eq_some_iff.mp empty
    exact absurd (congrArg String.toList same) (by simp)
  -- A name is taken in front of the text, so an empty one decides.
  have chosen : keyName ⟨sourceLines text, window⟩ key = some "" ↔ key.resolvedName = some "" := by
    unfold keyName
    cases resolved : key.resolvedName with
    | none => simpa using located
    | some name => simp
  have literal : key.value.bind Json.text? = some "" ↔ key.value = some (.string "") := by
    rcases key.value with _ | _ | _ | _ | _ | _ | _ <;> simp [Json.text?]
  rw [chosen, Node.IsEmptyText, Node.resolvedName]
  split
  · rename_i kind
    simpa [kind] using legible.name kind
  · rename_i kind
    rw [kind]
    exact iff_of_false (private_ _) (by simp)
  · rename_i kind
    rw [kind]
    exact iff_of_false (private_ _) (by simp)
  · rename_i kind
    rw [literal, kind]
    simp
  · rename_i kind
    rw [literal, kind]
    simp
  · rename_i notLiteral notText
    exact iff_of_false (by simp) fun empty => empty.1.elim notLiteral notText

/-- A legible key names its method, and only the literal of the empty text leaves the name empty. -/
theorem namesMethod_keyName {key : Node} (legible : key.IsLegible text) {method : FunctionOutline}
    (named : method.name = (keyName ⟨sourceLines text, window⟩ key).getD anonymous) : NamesMethod key method := by
  constructor
  · intro unresolved nowhere
    rw [named, keyName, unresolved, nowhere]
    rfl
  · rw [named, ← keyName_eq_empty_iff legible]
    cases keyName ⟨sourceLines text, window⟩ key with
    | none => decide
    | some name => simp

/-- Methods are named by their keys, one to one and in order. -/
theorem namesMethods (owner : String) (members : List Json)
    (legible : ∀ key ∈ members.filterMap fun member => (Member.decode member).toOption.bind Member.methodKey,
      key.IsLegible text) :
    List.Forall₂ NamesMethod
      (members.filterMap fun member => (Member.decode member).toOption.bind Member.methodKey)
      (((decodeEach owner Member.decode members).1.filterMap (member ⟨sourceLines text, window⟩)).filterMap fun
        | .method function => some function
        | .property _ => none) := by
  induction members with
  | nil => exact .nil
  | cons node rest ih =>
    rw [List.filterMap_cons] at legible ⊢
    rw [decodeEach]
    cases read : Member.decode node with
    | error failure =>
      simp only [read, Except.toOption, Option.bind_none] at legible ⊢
      exact ih legible
    | ok part =>
      simp only [read, Except.toOption, Option.bind_some] at legible ⊢
      cases part with
      | methodValue key value returns span =>
        obtain ⟨own, others⟩ := List.forall_mem_cons.mp legible
        exact .cons (namesMethod_keyName own (function_name _ _ _ _ _).1) (ih others)
      | method key parameters isAsync returns span =>
        obtain ⟨own, others⟩ := List.forall_mem_cons.mp legible
        exact .cons (namesMethod_keyName own (function_name _ _ _ _ _).1) (ih others)
      | property key =>
        -- A property adds no method, whether it has a name or not.
        rw [List.filterMap_cons]
        cases named : member ⟨sourceLines text, window⟩ (.property key) with
        | none => exact ih legible
        | some added =>
          obtain ⟨name, -, rfl⟩ := Option.map_eq_some_iff.mp named
          exact ih legible
      | other => exact ih legible

/-- A legible class is named, and so are its methods. -/
theorem namesClass_classDef {definition : Class} (span : Span) (legible : definition.name ≠ some "")
    (keys : ∀ key ∈ definition.methodKeys, key.IsLegible text) :
    NamesClass definition (classDef ⟨sourceLines text, window⟩ definition span).1 :=
  ⟨rfl, getD_anonymous_ne_empty legible, namesMethods _ _ keys⟩

/-- Variables are listed as functions under their own names. -/
theorem names_declarator (source : Source) (isExported : Bool) (whole : Option Span) (variable_ : Declarator) :
    (source.declarator isExported whole variable_).functions.map FunctionOutline.name =
      variable_.functionName.toList.map (·.getD anonymous) := by
  unfold declarator Declarator.functionName
  cases variable_.target with
  | identifier id => cases variable_.function <;> simp [function_name]
  | _ => rfl

/-- Declarations of variables list the functions among their values, and no classes. -/
theorem names_variables (source : Source) (exported : Option Span) (declaration : VariableDeclaration) :
    (source.variablesStatement exported declaration).functions.map FunctionOutline.name =
        (declaration.declarators.filterMap Declarator.functionName).map (·.getD anonymous) ∧
      (source.variablesStatement exported declaration).classes = [] := by
  have each : ∀ (isExported : Bool) (whole : Option Span) (declarators : List Declarator),
      ((declarators.map (source.declarator isExported whole)).foldr (· ++ ·)
          ({} : ModuleOutline)).functions.map FunctionOutline.name =
          (declarators.filterMap Declarator.functionName).map (·.getD anonymous) ∧
        ((declarators.map (source.declarator isExported whole)).foldr (· ++ ·)
          ({} : ModuleOutline)).classes = [] := by
    intro isExported whole declarators
    induction declarators with
    | nil => exact ⟨rfl, rfl⟩
    | cons declarator rest ih =>
      rw [List.map_cons, List.foldr_cons, ModuleOutline.functions_append, ModuleOutline.classes_append, ih.2,
        List.map_append, ih.1, names_declarator]
      refine ⟨?_, ?_⟩
      · cases named : declarator.functionName <;> simp [named]
      · unfold Source.declarator
        split <;> rfl
  exact each _ _ _

/-- The functions of a statement are listed under their declared names or else the placeholder. -/
theorem names_statement (source : Source) (exported : Option Span) (statement : Statement) :
    (source.statement exported statement).functions.map FunctionOutline.name =
      statement.functionNames.map (·.getD anonymous) := by
  induction statement using Statement.functionNames.induct generalizing exported with
  | case1 definition => simp [Source.statement, functionStatement, Statement.functionNames, function_name]
  | case2 declaration => exact (source.names_variables exported declaration).1
  | case3 inner names span ih =>
    simpa [Source.statement, Statement.functionNames] using ih (some span)
  | case4 definition span => simp [Source.statement, defaultStatement, Statement.functionNames, function_name]
  | case5 definition span => simp [Source.statement, defaultStatement, Statement.functionNames, function_name]
  | case6 statement noFunction noVariables noNamed noDefault noArrow =>
    rcases statement with definition | declaration | definition | declaration | ⟨_ | inner, names, span⟩ |
      ⟨definition | definition | definition | _, span⟩ | _
    · exact absurd rfl (noFunction definition)
    · exact absurd rfl (noVariables declaration)
    · rfl
    · rfl
    · rfl
    · exact absurd rfl (noNamed inner names span)
    · exact absurd rfl (noDefault definition span)
    · rfl
    · exact absurd rfl (noArrow definition span)
    · rfl
    · rfl

/-- The class of a statement is listed when it defines one. -/
theorem classes_statement (source : Source) (exported : Option Span) (statement : Statement) :
    List.Forall₂ (fun definition owner => ∃ span isExported,
        owner = { (source.classDef definition span).1 with isExported := isExported })
      statement.definedClass.toList (source.statement exported statement).classes := by
  induction statement using Statement.definedClass.induct generalizing exported with
  | case1 definition => exact .cons ⟨_, _, rfl⟩ .nil
  | case2 inner names span ih =>
    simpa [Source.statement, Statement.definedClass] using ih (some span)
  | case3 definition span => exact .cons ⟨_, _, rfl⟩ .nil
  | case4 statement noClass noNamed noDefault =>
    rcases statement with _ | declaration | definition | _ | ⟨_ | inner, names, span⟩ |
      ⟨_ | definition | _ | _, span⟩ | _
    · exact .nil
    · rw [Source.statement, (source.names_variables exported declaration).2]
      exact .nil
    · exact absurd rfl (noClass definition)
    · exact .nil
    · exact .nil
    · exact absurd rfl (noNamed inner names span)
    · exact .nil
    · exact absurd rfl (noDefault definition span)
    · exact .nil
    · exact .nil
    · exact .nil

end Source

/-- The functions of a program are listed under their declared names or else the placeholder, one to one. -/
theorem names_functions (text : List Char) (window : Nat) (tree : SyntaxTree) :
    (outline text window tree).functions.map FunctionOutline.name =
      tree.functionNames.map (·.getD anonymous) := by
  obtain ⟨body⟩ := tree
  induction body with
  | nil => rfl
  | cons node rest ih =>
    rw [outline_cons, ModuleOutline.functions_append, List.map_append, ih, Source.node]
    simp only [SyntaxTree.functionNames, SyntaxTree.declarations, List.filterMap_cons]
    cases read : Statement.decode .outer node with
    | error failure => rfl
    | ok statement =>
      simp only [Except.toOption, List.flatMap_cons, List.map_append, Source.names_statement]

/-- The classes of a legible program are named, and so are their methods, one to one. -/
theorem namesClasses {text : List Char} (window : Nat) {tree : SyntaxTree}
    (names : ∀ definition ∈ tree.classes, definition.name ≠ some "")
    (keys : ∀ definition ∈ tree.classes, ∀ key ∈ definition.methodKeys, key.IsLegible text) :
    List.Forall₂ NamesClass tree.classes (outline text window tree).classes := by
  obtain ⟨body⟩ := tree
  induction body with
  | nil => exact .nil
  | cons node rest ih =>
    rw [outline_cons, ModuleOutline.classes_append, Source.node]
    simp only [SyntaxTree.classes, SyntaxTree.declarations, List.filterMap_cons] at names keys ih ⊢
    cases read : Statement.decode .outer node with
    | error failure =>
      simp only [read, Except.toOption] at names keys ⊢
      exact ih names keys
    | ok statement =>
      have each := Source.classes_statement ⟨sourceLines text, window⟩ none statement
      simp only [read, Except.toOption, List.filterMap_cons] at names keys ⊢
      cases defined : statement.definedClass with
      | none =>
        simp only [defined] at names keys each ⊢
        rw [List.forall₂_nil_left_iff.mp each]
        exact ih names keys
      | some definition =>
        simp only [defined] at names keys each ⊢
        obtain ⟨owner, others, ⟨span, isExported, rfl⟩, none, same⟩ := List.forall₂_cons_left_iff.mp each
        rw [same, List.forall₂_nil_left_iff.mp none]
        obtain ⟨name, names⟩ := List.forall_mem_cons.mp names
        obtain ⟨own, keys⟩ := List.forall_mem_cons.mp keys
        have named : NamesClass definition (Source.classDef ⟨sourceLines text, window⟩ definition span).1 :=
          Source.namesClass_classDef span name own
        exact .cons ⟨named.name, named.nonempty, named.methods⟩ (ih names keys)

end SourceOutline.Script
