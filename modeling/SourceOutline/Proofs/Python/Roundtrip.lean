import SourceOutline.Proofs.Python.Correspondence
import SourceOutline.Proofs.Python.Reparse
import SourceOutline.Python.Extract

/-! The text of a definition at the first column is outlined as the definition in its source. -/

namespace SourceOutline

/-- A function at lines that count from a later row. -/
def FunctionOutline.raised (above : Nat) (function : FunctionOutline) : FunctionOutline :=
  { function with line := function.line - above }

/-- A class at lines that count from a later row. -/
def ClassOutline.raised (above : Nat) (owner : ClassOutline) : ClassOutline :=
  { owner with line := owner.line - above, methods := owner.methods.map (·.raised above) }

/-- A note at a line that counts from a later row. -/
def Omission.raised (above : Nat) (omission : Omission) : Omission :=
  { omission with line := omission.line.map (· - above) }

/-- An outline at lines that count from a later row. -/
def ModuleOutline.raised (above : Nat) (outline : ModuleOutline) : ModuleOutline :=
  { outline with
    functions := outline.functions.map (·.raised above)
    classes := outline.classes.map (·.raised above)
    omissions := outline.omissions.map (·.raised above) }

namespace Python

/-- Parameters are added at whatever line a function starts. -/
theorem foldl_addParameter_raised (above : Nat) (listed : List (String × Option String))
    (function : FunctionOutline) :
    listed.foldl (fun outline parameter => outline.addParameter parameter.1 parameter.2)
        (function.raised above) =
      (listed.foldl (fun outline parameter => outline.addParameter parameter.1 parameter.2)
        function).raised above := by
  induction listed generalizing function with
  | nil => rfl
  | cons first rest ih => exact ih (function.addParameter first.1 first.2)

/-- The definition below the decorators of corresponding statements corresponds. -/
theorem definitionOf_alike {same : Mark → Mark → Prop} {node node' : Node}
    (alike : Node.Alike same node node') :
    Option.Rel (Node.Alike same) (definitionOf node) (definitionOf node') := by
  unfold definitionOf
  rw [alike.kind]
  split
  · exact .some alike
  · exact .some alike
  · exact alike.child? .definition
  · exact .none

/-- Between places that correspond there is the same text. -/
def SameTexts (source text : List Char) (same : Mark → Mark → Prop) : Prop :=
  ∀ start start' stop stop', same start start' → same stop stop' →
    textBetween source start stop = textBetween text start' stop'

/-- The text of the literals that a statement consists of, if it does. -/
def literalText (source : List Char) (statement : Node) : Option (List Char) :=
  match statement.kind, statement.namedChildren with
  | .expressionStatement, [literal] =>
    match literal.kind with
    | .string => stringValue source literal
    | .concatenatedString => joinedValue source literal.namedChildren
    | _ => none
  | _, _ => none

/-- The text that a body starts with is that of its first statement. -/
theorem docstring_eq_bind (source : List Char) (body : Node) :
    docstring source body = (body.namedChildren.find? fun child => !child.isComment).bind (literalText source) := rfl

section

variable {source text : List Char} {same : Mark → Mark → Prop} (texts : SameTexts source text same)
  {node node' : Node}

include texts

/-- Nodes that correspond have the same text. -/
theorem SameTexts.text_eq (alike : Node.Alike same node node') : node'.text text = node.text source :=
  (texts _ _ _ _ alike.start alike.stop).symm

/-- Nodes that correspond have the same text on one line. -/
theorem SameTexts.collapsed_eq (alike : Node.Alike same node node') :
    node'.collapsed text = node.collapsed source := by
  rw [Node.collapsed, Node.collapsed, texts.text_eq alike]

/-- Literals that correspond stand for the same text. -/
theorem SameTexts.stringValue_eq (alike : Node.Alike same node node') :
    stringValue text node' = stringValue source node := by
  have kinds := fun kind part part' (alike : Node.Alike same part part') =>
    congrArg (· == kind) alike.kind
  have opening := find?_rel (kinds .stringStart) alike.children
  have closing := find?_rel (kinds .stringEnd) alike.children
  unfold stringValue
  rw [alike.kind, any_rel (kinds .interpolation) alike.children]
  generalize (node.children.find? fun part => part.kind == .stringStart) = first,
    (node'.children.find? fun part => part.kind == .stringStart) = first' at opening ⊢
  generalize (node.children.find? fun part => part.kind == .stringEnd) = last,
    (node'.children.find? fun part => part.kind == .stringEnd) = last' at closing ⊢
  cases opening with
  | none => rfl
  | some first =>
    cases closing with
    | none => rfl
    | some last =>
      have between := texts _ _ _ _ first.stop last.start
      simp only [Option.bind_eq_bind, Option.bind_some, texts.text_eq first, ← between]

/-- Literals side by side that correspond stand for the same text. -/
theorem SameTexts.joinedValue_eq {parts parts' : List Node}
    (alike : List.Forall₂ (Node.Alike same) parts parts') :
    joinedValue text parts' = joinedValue source parts := by
  induction alike with
  | nil => rfl
  | cons first rest ih =>
    rw [joinedValue, joinedValue, ih, Node.isComment, Node.isComment, first.kind,
      texts.stringValue_eq first]

/-- Statements that correspond consist of literals for the same text. -/
theorem SameTexts.literalText_eq (alike : Node.Alike same node node') :
    literalText text node' = literalText source node := by
  have parts := alike.namedChildren
  unfold literalText
  rw [alike.kind]
  generalize node.namedChildren = inner, node'.namedChildren = inner' at parts ⊢
  cases parts with
  | nil => cases node.kind <;> rfl
  | cons literals others =>
    cases others with
    | cons second more => cases node.kind <;> rfl
    | nil =>
      cases node.kind with
      | expressionStatement =>
        simp only [literals.kind, texts.stringValue_eq literals,
          texts.joinedValue_eq literals.namedChildren]
      | _ => rfl

/-- Bodies that correspond start with the same literal. -/
theorem SameTexts.docstring_eq (alike : Node.Alike same node node') :
    docstring text node' = docstring source node := by
  have found : Option.Rel (Node.Alike same) (node.namedChildren.find? fun part => !part.isComment)
      (node'.namedChildren.find? fun part => !part.isComment) :=
    find?_rel (fun _ _ alike => by rw [Node.isComment, Node.isComment, alike.kind]) alike.namedChildren
  rw [docstring_eq_bind, docstring_eq_bind]
  generalize (node.namedChildren.find? fun part => !part.isComment) = first,
    (node'.namedChildren.find? fun part => !part.isComment) = first' at found ⊢
  cases found with
  | none => rfl
  | some firsts => exact texts.literalText_eq firsts

/-- Definitions that correspond say the same about themselves. -/
theorem SameTexts.bodyDoc_eq (alike : Node.Alike same node node') :
    bodyDoc text node' = bodyDoc source node := by
  have body := alike.child? .body
  unfold bodyDoc
  generalize node.child? .body = block, node'.child? .body = block' at body ⊢
  cases body with
  | none => rfl
  | some block => rw [Option.bind_some, Option.bind_some, texts.docstring_eq block]

/-- The child of corresponding nodes in a role has the same text on one line. -/
theorem SameTexts.map_collapsed_eq (alike : Node.Alike same node node') (role : Role) :
    (node'.child? role).map (Node.collapsed text) = (node.child? role).map (Node.collapsed source) := by
  have child := alike.child? role
  generalize node.child? role = part, node'.child? role = part' at child ⊢
  cases child with
  | none => rfl
  | some part => rw [Option.map_some, Option.map_some, texts.collapsed_eq part]

/-- Parameters that correspond are listed alike. -/
theorem SameTexts.listedParameters_eq {parameters parameters' : List Node}
    (alike : List.Forall₂ (Node.Alike same) parameters parameters') :
    listedParameters text parameters' = listedParameters source parameters := by
  induction alike with
  | nil => rfl
  | @cons parameter parameter' later later' first rest ih =>
    have type := texts.map_collapsed_eq first .type
    have targets := first.namedChildren
    have name := first.child? .name
    simp only [listedParameters, ih, first.kind, texts.text_eq first, parameterType, type]
    generalize parameter.namedChildren = inner, parameter'.namedChildren = inner' at targets ⊢
    generalize parameter.child? .name = found, parameter'.child? .name = found' at name ⊢
    cases name with
    | none =>
      cases targets with
      | nil => rfl
      | cons target others => simp only [target.kind, texts.text_eq target]
    | some named =>
      cases targets with
      | nil => simp only [texts.text_eq named]
      | cons target others => simp only [texts.text_eq named, target.kind, texts.text_eq target]

/-- Classes whose arguments correspond are derived from the same classes. -/
theorem SameTexts.baseNames_eq
    (alike : List.Forall₂ (Node.Alike same) (((node.child? .bases).map Node.namedChildren).getD [])
      (((node'.child? .bases).map Node.namedChildren).getD [])) :
    baseNames text node' = baseNames source node := by
  refine map_eq_of_rel (fun _ _ base => texts.collapsed_eq base) (filter_rel ?_ alike)
  intro base base' bases
  rw [Node.isComment, Node.isComment, bases.kind]

end

section

variable {source text : List Char} {above : Nat} {same : Mark → Mark → Prop}
  (rows : SameRows source text above same) {node node' : Node}

include rows

/-- Texts of the same rows are the same. -/
theorem SameRows.sameTexts : SameTexts source text same := rows.text

/-- Nodes that correspond have the same text when it is shifted to the first column. -/
theorem SameRows.dedented_eq (alike : Node.Alike same node node') :
    dedented text node' = dedented source node := by
  unfold dedented
  rw [rows.sameTexts.text_eq alike, rows.column _ _ alike.start]

/-- Lines of nodes that correspond count from the first row of the text. -/
theorem SameRows.line_eq (alike : Node.Alike same node node') : node'.line = node.line - above := by
  rw [Node.line, Node.line, rows.row _ _ alike.start]
  omega

/-- Functions that correspond have the same outline. -/
theorem SameRows.functionOutline_eq {span span' : Node} (alike : Node.Alike same node node')
    (spans : Node.Alike same span span') :
    functionOutline text node' span' = (functionOutline source node span).map (·.raised above) := by
  have name := alike.child? .name
  have listed := rows.sameTexts.listedParameters_eq (alike.childParts .parameters)
  have isAsync : (node'.children.any fun child => child.kind == .asyncKeyword) =
      node.children.any fun child => child.kind == .asyncKeyword :=
    any_rel (fun _ _ alike => by rw [alike.kind]) alike.children
  unfold functionOutline
  generalize node.child? .name = found, node'.child? .name = found' at name ⊢
  cases name with
  | none => rfl
  | some named =>
    simp only [Option.map_some, rows.sameTexts.text_eq named, rows.sameTexts.bodyDoc_eq alike,
      rows.sameTexts.map_collapsed_eq alike, rows.dedented_eq spans, isAsync, rows.line_eq alike, listed]
    rw [← foldl_addParameter_raised]
    rfl

/-- Statements that correspond define the same methods. -/
theorem SameRows.methodOutline_eq (alike : Node.Alike same node node') :
    methodOutline text node' = ((methodOutline source node).1.map (·.raised above),
      (methodOutline source node).2.map (·.raised above)) := by
  have definition := definitionOf_alike alike
  unfold methodOutline
  generalize definitionOf node = found, definitionOf node' = found' at definition ⊢
  cases definition with
  | none => rfl
  | @some inner inner' inners =>
    simp only [inners.kind, rows.functionOutline_eq inners alike, rows.line_eq inners]
    cases functionOutline source inner node <;> split <;> rfl

/-- Classes that correspond have the same outline. -/
theorem SameRows.classOutline_eq {span span' : Node} (alike : Node.Alike same node node')
    (spans : Node.Alike same span span') :
    classOutline text node' span' = (classOutline source node span).map fun found =>
      (found.1.raised above, found.2.map (·.raised above)) := by
  have name := alike.child? .name
  have methods := map_eq_of_rel (fun _ _ member => rows.methodOutline_eq member) (alike.childParts .body)
  unfold classOutline
  generalize node.child? .name = found, node'.child? .name = found' at name ⊢
  cases name with
  | none => rfl
  | some named =>
    simp only [Option.map_some, rows.sameTexts.text_eq named, rows.sameTexts.bodyDoc_eq alike,
      rows.sameTexts.baseNames_eq (alike.childParts .bases), rows.dedented_eq spans, rows.line_eq alike, methods]
    simp only [ClassOutline.raised, List.flatMap_map, List.map_flatMap]

/-- Definitions that correspond have the same outline. -/
theorem SameRows.definitionOutline_eq {span span' : Node} (alike : Node.Alike same node node')
    (spans : Node.Alike same span span') :
    definitionOutline text node' span' = (definitionOutline source node span).raised above := by
  unfold definitionOutline
  rw [alike.kind, rows.functionOutline_eq alike spans, rows.classOutline_eq alike spans,
    rows.line_eq alike]
  split
  · cases functionOutline source node span <;> rfl
  · cases classOutline source node span <;> rfl
  · rfl

/-- Statements that correspond have the same outline. -/
theorem SameRows.statementOutline_eq (alike : Node.Alike same node node') :
    statementOutline text node' = (statementOutline source node).raised above := by
  have definition := alike.child? .definition
  unfold statementOutline
  rw [alike.kind, rows.definitionOutline_eq alike alike, rows.sameTexts.collapsed_eq alike, rows.line_eq alike]
  split
  · rfl
  · rfl
  · generalize node.child? .definition = found, node'.child? .definition = found' at definition ⊢
    cases definition with
    | none => rfl
    | some inner => exact rows.definitionOutline_eq inner alike
  · rfl
  · rfl

end

/-- The text of a node that is found in a text of its own is that text. -/
theorem Excerpt.text_eq {source front text back : List Char} {node again : Node}
    (excerpt : Excerpt source node front text back again) : node.text source = text := by
  have start : node.start.offset = front.length := by
    rw [excerpt.start, offset_pass]
    exact Nat.zero_add _
  rw [Node.text, textBetween, excerpt.stop, offset_pass, Nat.add_sub_cancel_left, start, excerpt.whole,
    List.drop_left, List.take_left]

/-- The text of a definition at the first column is outlined as the definition in its source. -/
theorem outline_dedented {source : List Char} {tree span : Node} (parsed : parse source = some tree)
    (accepted : checkStructure source tree = .ok ()) (member : span ∈ tree.namedChildren)
    (defines : span.kind.defines = true) (first : span.start.column = 0) :
    outline (dedented source span) = .ok ((statementOutline source span).raised span.start.row) := by
  obtain ⟨front, text, back, again, parted⟩ :=
    exists_parted_of_defines parsed (List.mem_filter.mp member).1 defines
  obtain ⟨found, cut, some_piece, solid⟩ := parted.solid
  have rows := sameRows_of_flush parted.whole parted.start first (exists_firm cut some_piece solid)
  have own : dedented source span = text := by
    rw [dedented, if_pos first]
    exact parted.text_eq
  have other : span.kind ≠ .block := fun kind => by
    rw [kind] at defines
    cases defines
  have named : again.isNamed = true := by
    rw [Node.isNamed, parted.alike.kind]
    cases kind : span.kind <;> first | rfl | (rw [kind] at defines; cases defines)
  have checked := rows.checkStructure_alone accepted member parted.alike other first (Mark.pass {} text)
  rw [own, outline, parted.parsed]
  show (checkStructure text _ >>= fun _ => Except.ok (treeOutline text _)) = _
  rw [checked, ← rows.statementOutline_eq parted.alike]
  show Except.ok (treeOutline text _) = _
  rw [treeOutline, Node.namedChildren, Node.children, List.filter_cons_of_pos named]
  exact congrArg Except.ok (ModuleOutline.append_empty _)

/-- A source is accepted when it has a tree whose structure is accepted. -/
theorem outline_eq_ok {source : List Char} {outlined : ModuleOutline} :
    outline source = .ok outlined ↔ ∃ tree, parse source = some tree ∧
      checkStructure source tree = .ok () ∧ outlined = treeOutline source tree := by
  unfold outline
  cases parse source with
  | none => simp
  | some tree =>
    cases checked : checkStructure source tree with
    | error failure => simp [checked, Bind.bind, Except.bind]
    | ok done => simp [checked, Bind.bind, Except.bind, Pure.pure, Except.pure, eq_comm]

/-- Whether a source is accepted can be computed. -/
theorem isOk_outline_iff {source : List Char} :
    (outline source).isOk = true ↔ ∃ listed, outline source = .ok listed := by
  cases outline source <;> simp [Except.isOk, Except.toBool]

/-- The functions at the top are those of the statements. -/
theorem functions_treeOutline (source : List Char) (tree : Node) :
    (treeOutline source tree).functions =
      tree.namedChildren.flatMap fun statement => (statementOutline source statement).functions := by
  rw [treeOutline]
  induction tree.namedChildren with
  | nil => rfl
  | cons first rest ih =>
    rw [List.map_cons, List.foldr_cons, ModuleOutline.functions_append, ih, List.flatMap_cons]

/-- The classes at the top are those of the statements. -/
theorem classes_treeOutline (source : List Char) (tree : Node) :
    (treeOutline source tree).classes =
      tree.namedChildren.flatMap fun statement => (statementOutline source statement).classes := by
  rw [treeOutline]
  induction tree.namedChildren with
  | nil => rfl
  | cons first rest ih =>
    rw [List.map_cons, List.foldr_cons, ModuleOutline.classes_append, ih, List.flatMap_cons]

/-- The outline of a statement with a definition is that of the definition. -/
theorem statementOutline_of_definitionOf {source : List Char} {span definition : Node}
    (found : definitionOf span = some definition) :
    statementOutline source span = definitionOutline source definition span := by
  unfold definitionOf at found
  unfold statementOutline
  split at found
  · cases found
    simp [*]
  · cases found
    simp [*]
  · simp [*]
  · cases found

/-- A statement that has a function or a class in its outline is a definition. -/
theorem exists_definitionOf {source : List Char} {span : Node}
    (listed : (statementOutline source span).functions ≠ [] ∨ (statementOutline source span).classes ≠ []) :
    ∃ definition, definitionOf span = some definition := by
  unfold statementOutline at listed
  unfold definitionOf
  split at listed
  · simp [*]
  · simp [*]
  · split at listed
    · simp [*]
    · simp at listed
  · simp at listed
  · simp at listed

/-- A function has the text of its span. -/
theorem text_functionOutline {source : List Char} {definition span : Node} {function : FunctionOutline}
    (found : functionOutline source definition span = some function) :
    function.text = String.ofList (dedented source span) := by
  obtain ⟨name, _, rfl⟩ := Option.map_eq_some_iff.mp found
  -- Parameters do not change the text.
  have kept : ∀ (listed : List (String × Option String)) (start : FunctionOutline),
      (listed.foldl (fun outline parameter => outline.addParameter parameter.1 parameter.2) start).text =
        start.text := by
    intro listed
    induction listed with
    | nil => exact fun _ => rfl
    | cons first rest ih => exact fun start => ih (start.addParameter first.1 first.2)
  exact kept _ _

/-- A definition with a function in its outline has nothing else in it. -/
theorem definitionOutline_of_function {source : List Char} {definition span : Node}
    {function : FunctionOutline} (listed : function ∈ (definitionOutline source definition span).functions) :
    definitionOutline source definition span = { functions := [function] } ∧
      function.text = String.ofList (dedented source span) := by
  unfold definitionOutline at listed ⊢
  split at listed
  · cases found : functionOutline source definition span with
    | none => simp [found] at listed
    | some other =>
      obtain rfl : function = other := by simpa [found] using listed
      simp [*, text_functionOutline found]
  · cases found : classOutline source definition span <;> simp [found] at listed
  · simp at listed

/-- A definition with a class in its outline has nothing else in it, apart from notes. -/
theorem definitionOutline_of_class {source : List Char} {definition span : Node} {owner : ClassOutline}
    (listed : owner ∈ (definitionOutline source definition span).classes) :
    (∃ omissions, definitionOutline source definition span =
      { classes := [owner], omissions := omissions }) ∧
      owner.text = String.ofList (dedented source span) := by
  unfold definitionOutline at listed ⊢
  split at listed
  · cases found : functionOutline source definition span <;> simp [found] at listed
  · cases found : classOutline source definition span with
    | none => simp [found] at listed
    | some both =>
      obtain ⟨other, omissions⟩ := both
      obtain rfl : owner = other := by simpa [found] using listed
      obtain ⟨name, _, same⟩ := Option.map_eq_some_iff.mp found
      refine ⟨⟨omissions, by simp [*]⟩, ?_⟩
      rw [← (Prod.mk.inj same).1]
  · simp at listed

/-- A statement at the top of a source. -/
def IsTop (source : List Char) (span : Node) : Prop :=
  ∃ tree, parse source = some tree ∧ span ∈ tree.namedChildren

/-- A definition at the first column has the outline that its own text has. -/
theorem IsTop.outline_definition {source : List Char} {span definition : Node}
    (accepted : ∃ outlined, outline source = .ok outlined) (top : IsTop source span)
    (found : definitionOf span = some definition) (first : span.start.column = 0) :
    outline (dedented source span) =
      .ok ((definitionOutline source definition span).raised span.start.row) := by
  obtain ⟨outlined, extracted⟩ := accepted
  obtain ⟨tree, parsed, checked, _⟩ := outline_eq_ok.mp extracted
  obtain ⟨tree', parsed', member⟩ := top
  obtain rfl : tree = tree' := Option.some.inj (parsed.symm.trans parsed')
  rw [outline_dedented parsed checked member (defines_of_definitionOf found) first,
    statementOutline_of_definitionOf found]

/-- Every function and every class at the top belongs to a statement; when that starts at the first
column, the text of the record is accepted and its outline is the same record and no other, at lines that
count from the first line of the statement. -/
theorem outline_text_eq {source : List Char} {outlined : ModuleOutline}
    (extracted : outline source = .ok outlined) :
    (∀ function ∈ outlined.functions, ∃ span, IsTop source span ∧
      function ∈ (statementOutline source span).functions ∧ (span.start.column = 0 →
        outline function.text.toList = .ok { functions := [function.raised span.start.row] })) ∧
    ∀ owner ∈ outlined.classes, ∃ span, IsTop source span ∧
      owner ∈ (statementOutline source span).classes ∧ (span.start.column = 0 →
        ∃ omissions, outline owner.text.toList =
          .ok { classes := [owner.raised span.start.row], omissions := omissions }) := by
  obtain ⟨tree, parsed, _, rfl⟩ := outline_eq_ok.mp extracted
  constructor
  · intro function listed
    rw [functions_treeOutline] at listed
    obtain ⟨span, member, listed⟩ := List.mem_flatMap.mp listed
    refine ⟨span, ⟨tree, parsed, member⟩, listed, fun first => ?_⟩
    obtain ⟨definition, found⟩ := exists_definitionOf (.inl (List.ne_nil_of_mem listed))
    have again := IsTop.outline_definition ⟨_, extracted⟩ ⟨tree, parsed, member⟩ found first
    rw [statementOutline_of_definitionOf found] at listed
    obtain ⟨only, text⟩ := definitionOutline_of_function listed
    rw [text, String.toList_ofList, again, only]
    rfl
  · intro owner listed
    rw [classes_treeOutline] at listed
    obtain ⟨span, member, listed⟩ := List.mem_flatMap.mp listed
    refine ⟨span, ⟨tree, parsed, member⟩, listed, fun first => ?_⟩
    obtain ⟨definition, found⟩ := exists_definitionOf (.inr (List.ne_nil_of_mem listed))
    have again := IsTop.outline_definition ⟨_, extracted⟩ ⟨tree, parsed, member⟩ found first
    rw [statementOutline_of_definitionOf found] at listed
    obtain ⟨⟨omissions, only⟩, text⟩ := definitionOutline_of_class listed
    refine ⟨omissions.map (·.raised span.start.row), ?_⟩
    rw [text, String.toList_ofList, again, only]
    rfl

end Python

end SourceOutline
