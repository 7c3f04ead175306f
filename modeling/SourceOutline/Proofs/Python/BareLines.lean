import SourceOutline.Proofs.Python.Bare

/-! What stands on a line is bare: statements, decorators, and the parts of headers. -/

namespace SourceOutline.Python

section Statements

open Parse

/-- The values of an assignment are bare. -/
theorem bare_assigned : assigned.Finds Expression.Bare :=
  .behind _ fun _ => .ite (bare_yieldExpression bare_expression bare_items) bare_items

/-- The values of several assignments are bare. -/
theorem bare_assignments : assignments.Finds AllBare := by
  refine .bind (.repeatWhile _ bare_assigned) fun values bare => .ite (.pure ?_) .fail
  exact .flatMap fun value member => (bare value member).inside

/-- The node of an expression of a statement is bare. -/
theorem bare_formedNode : formedNode.Finds fun found => found.2.Bare :=
  .behind _ fun _ => .bind bare_item fun _ bare => .behind _ fun _ => .pure (.of_parts bare.plain rfl bare.parts)

/-- A statement that consists of expressions is bare. -/
theorem bare_expressions : expressions.Finds AllBare := by
  have values := bare_kept bare_assigned
  refine .behind _ fun start => .behind _ fun yields => .ite ?_ ?_
  · refine .bind (bare_expressionNode rfl (bare_yieldExpression bare_expression bare_items)) fun value bare => ?_
    exact .pure bare.alone
  · refine .bind (.commaSeparated _ bare_formedNode) fun found bare => ?_
    have parts : AllBare (found.1.flatMap fun value =>
        (Expression.mk value.1 value.2.kind value.2.children).inside) :=
      .flatMap fun value member => Expression.Bare.inside ⟨(bare value member).plain, (bare value member).children⟩
    extract_lets inner whole isSingle
    have finds : ∀ later, AllBare later → (whole later).Finds AllBare := fun later others =>
      .behind _ fun _ => .pure (Node.Bare.of_parts rfl rfl (parts.append others)).alone
    refine .unless (.behind _ fun equals => .ite (.ite (.bind bare_assignments finds) .fail) ?_)
    refine .behind _ fun augmented => .ite (.behind _ fun _ => .ite (.bind values finds) .fail) ?_
    refine .behind _ fun colon => .ite (.unless ?_) (.pure ?_)
    · refine .bind (bare_typeNode bare_expression rfl) fun type given => .behind _ fun assigns => ?_
      exact .either values (.pure allBare_nil) fun value others => finds _ (given.children.append others)
    · intro node member
      obtain ⟨value, above, rfl⟩ := List.mem_map.mp member
      exact bare value above

/-- A print statement is bare. -/
theorem bare_printStatement : printStatement.Finds AllBare := by
  refine .behind _ fun _ => .behind _ fun redirects => ?_
  extract_lets rest
  have finds : ∀ target, AllBare target → (rest target).Finds AllBare := by
    intro target bare
    refine .bind (.commaSeparated _ bare_expression) fun found others => .behind _ fun symbol => ?_
    refine .behind _ fun ends => .ite (.pure (bare.append ?_)) .fail
    exact .flatMap fun value member => (others value member).inside
  split
  · exact .bind (bare_kept bare_expression) fun value bare => .behind _ fun _ => .bind (.pure bare) finds
  · exact .bind (.pure allBare_nil) finds

/-- An exec statement is bare. -/
theorem bare_execStatement : execStatement.Finds AllBare := by
  refine .behind _ fun _ => .behind _ fun isString => ?_
  extract_lets rest
  have finds : ∀ code, AllBare code → (rest code).Finds AllBare := by
    refine fun code bare => .behind _ fun inside => ?_
    exact .either (bare_kept bare_items) (.pure allBare_nil) fun spaces others =>
      .pure (bare.children.append others)
  split
  · exact .bind (bare_stringNode bare_items) fun literal bare => .bind (.pure bare.children) finds
  · exact .bind (bare_nameNode rfl) fun name bare => .bind (.pure bare.alone) finds

/-- The types that a definition is generic in are bare. -/
theorem bare_typeParameters : typeParameters.Finds AllBare := by
  refine .behind _ fun given => .ite (.pure allBare_nil) ?_
  refine .bind (.commaSeparated _ ?_) fun found bare => .behind _ fun _ => .unless (.pure (.flatten bare))
  refine .bind (bare_typeNode bare_expression rfl) fun type bare => .behind _ fun bounded => ?_
  exact .either (bare_kept bare_expression) (.pure allBare_nil) fun bound others =>
    .pure (bare.children.append others)

/-- A name for a type is bare. -/
theorem bare_typeAlias : typeAlias.Finds AllBare :=
  .behind _ fun _ => .behind _ fun _ => .bind bare_typeParameters fun _ bare => .behind _ fun _ =>
    .bind (bare_typeNode bare_expression rfl) fun _ type => .pure (bare.append type.children)

/-- What is raised is bare. -/
theorem bare_raiseStatement : raiseStatement.Finds AllBare := by
  refine .behind _ fun _ => .behind _ fun symbol => .ite (.pure allBare_nil) ?_
  refine .bind (bare_kept bare_items) fun raised bare => .behind _ fun caused => ?_
  exact .either (bare_kept bare_expression) (.pure allBare_nil) fun cause others => .pure (bare.append others)

/-- What is asserted is bare. -/
theorem bare_assertStatement : assertStatement.Finds AllBare := by
  refine .behind _ fun _ => .bind (bare_kept bare_expression) fun condition bare => .behind _ fun explains => ?_
  exact .either (bare_kept bare_expression) (.pure allBare_nil) fun message others => .pure (bare.append others)

/-- What is deleted is bare. -/
theorem bare_deleteStatement : deleteStatement.Finds AllBare :=
  .behind _ fun _ => .bind bare_items fun _ bare => .ite (.pure bare.inside) .fail

/-- A comment or a join is bare. -/
theorem bare_triviaNode (token : Token) : token.triviaNode.Bare := by
  refine .of_parts ?_ rfl allBare_nil
  split <;> rfl

/-- A bare node among bare ones leaves them bare. -/
theorem AllBare.insertNode {node : Node} {nodes : List Node} (bare : node.Bare) (others : AllBare nodes) :
    AllBare (insertNode node nodes) := by
  induction nodes with
  | nil => exact .cons bare others
  | cons other rest ih =>
    obtain ⟨here, later⟩ := List.forall_mem_cons.mp others
    rw [Python.insertNode]
    split
    · exact .cons bare others
    · exact .cons here (ih later)

/-- The parts of a node stay bare when it gets its comments and joins. -/
theorem Node.IsPart.withTrivia {role : Role} {node : Node} (part : node.IsPart role) (trivia : List Token) :
    (node.withTrivia trivia).IsPart role := by
  obtain ⟨kind, own, start, stop, parts⟩ := node
  refine ⟨part.plain, part.role, ?_⟩
  have others : AllBare parts := part.parts
  rw [Node.withTrivia, Node.children]
  generalize List.filter _ _ = inside
  clear part
  induction inside generalizing parts with
  | nil => exact others
  | cons token rest ih => exact ih _ (.insertNode (bare_triviaNode token) others)

/-- A node with its comments and joins is found in its role. -/
theorem part_withTrivia {role : Role} {parser : Parse Node} (finds : parser.Finds (Node.IsPart role)) :
    parser.withTrivia.Finds (Node.IsPart role) :=
  .bind finds fun _ part => .behind _ fun _ => .pure (part.withTrivia _)

/-- An import of names keeps no nodes. -/
theorem bare_importNames : importNames.Finds AllBare := by
  refine .behind _ fun _ => .behind _ fun dots => .behind _ fun symbol => ?_
  extract_lets named name done names check
  have found : ∀ settled, (names settled).Finds AllBare := by
    refine fun settled => .behind _ fun _ => .behind _ fun all => .ite (.pure allBare_nil) ?_
    refine .behind _ fun grouped => .ite ?_ (.behind _ fun _ => .pure allBare_nil)
    exact .behind _ fun _ => .behind _ fun _ => .unless (.pure allBare_nil)
  have checked : ∀ settled, (check settled).Finds AllBare := fun settled => .unless (found ())
  exact .ite (.behind _ checked) (checked ())

/-- A statement without a body is bare. -/
theorem bare_simpleStatement : simpleStatement.Finds Node.Bare := by
  have plain : (node .expressionStatement .part expressions).withTrivia.Finds Node.Bare := fun cursor value moved run =>
    (part_withTrivia (part_node rfl bare_expressions) cursor value moved run).bare rfl
  refine .behind _ fun symbol => ?_
  split
  case h_1 => exact bare_node rfl rfl (.behind _ fun _ => .behind _ fun _ => .pure allBare_nil)
  case h_2 => exact bare_node rfl rfl bare_importNames
  case h_3 | h_4 | h_5 => exact bare_node rfl rfl (.behind _ fun _ => .pure allBare_nil)
  case h_6 | h_7 => exact bare_node rfl rfl (.behind _ fun _ => .behind _ fun _ => .pure allBare_nil)
  case h_8 =>
    exact bare_node rfl rfl (.behind _ fun _ => .behind _ fun _ => .ite (bare_kept bare_items) (.pure allBare_nil))
  case h_9 => exact bare_node rfl rfl bare_raiseStatement
  case h_10 => exact bare_node rfl rfl bare_assertStatement
  case h_11 => exact bare_node rfl rfl bare_deleteStatement
  case h_12 =>
    refine .behind _ fun old => .ite ?_ plain
    refine .bind (.attempt (bare_node rfl rfl bare_printStatement)) fun found bare => ?_
    split
    · exact .pure (bare _ rfl)
    · exact plain
  case h_13 => exact .behind _ fun second => .ite (bare_node rfl rfl bare_execStatement) plain
  case h_14 => exact .behind _ fun second => .ite (bare_node rfl rfl bare_typeAlias) plain
  case h_15 => exact plain

/-- The statements of a line are bare. -/
theorem bare_simpleLine : simpleLine.Finds AllBare :=
  .bind bare_simpleStatement fun _ bare => .bind (.repeatWhile _ bare_simpleStatement) fun _ others =>
    .behind _ fun _ => .pure (.cons bare others)

end Statements

/-- The body on the line of a header is a block that holds what is bare. -/
structure IsBareBody (body : Node) : Prop where
  /-- It is a block. -/
  kind : body.kind = .block
  /-- It is a body. -/
  role : body.role = .body
  /-- Its statements are bare. -/
  children : AllBare body.children

/-- What stands on a line needs no other header: statements without a body, a decorator, or the parts of a header
and the statements of the block that stands behind it. -/
inductive Content.Bare : Content → Prop where
  /-- Statements are bare. -/
  | simple {found : List Node} (bare : AllBare found) : Bare (.simple found)
  /-- A decorator is bare. -/
  | decorator {applied : List Node} (bare : AllBare applied) : Bare (.decorator applied)
  /-- The parts of a header are made of what is bare, and so is the block behind it. -/
  | header {head : Head} (parts : AllParts head.parts)
    (body : ∀ block, head.body = some block → IsBareBody block) : Bare (.header head)

section Lines

open Parse

/-- A block behind a colon holds what is bare. -/
theorem bare_lineBody : lineBody.Finds fun found => ∀ block, found = some block → IsBareBody block := by
  have finds : (node .block .body simpleLine).Finds IsBareBody :=
    .behind _ fun _ => .bind bare_simpleLine fun _ bare => .behind _ fun _ => .pure ⟨rfl, rfl, bare⟩
  refine .behind _ fun _ => .behind _ fun symbol => .ite (.behind _ fun _ => .pure (by simp)) ?_
  exact .bind finds fun block bare => .pure fun _ same => Option.some.inj same ▸ bare

/-- A header is made of its parts and its body. -/
theorem part_header {kind : Kind} {stage : Stage} {parts : Parse (List Node)} (finds : parts.Finds AllParts) :
    (header kind stage parts).Finds Content.Bare :=
  .bind finds fun _ parts => .bind bare_lineBody fun _ body => .pure (.header parts body)

/-- A header is bare when its parts are. -/
theorem bare_header {kind : Kind} {stage : Stage} {parts : Parse (List Node)} (finds : parts.Finds AllBare) :
    (header kind stage parts).Finds Content.Bare :=
  part_header fun cursor value moved run => (finds cursor value moved run).allParts

/-- Statements without a body are bare. -/
theorem bare_simpleContent : simpleContent.Finds Content.Bare :=
  .bind bare_simpleLine fun _ bare => .pure (.simple bare)

/-- A condition is bare. -/
theorem bare_conditionParts (word : String) : (conditionParts word).Finds AllBare :=
  .behind _ fun _ => bare_kept bare_expression

/-- What a loop runs over is bare. -/
theorem bare_forParts : forParts.Finds AllBare :=
  .behind _ fun _ => .behind _ fun _ => .bind (bare_targets bare_primary) fun _ bare => .behind _ fun _ =>
    .bind (bare_kept bare_items) fun _ others => .pure (bare.append others)

/-- A word alone is bare. -/
theorem bare_wordParts (word : String) : (wordParts word).Finds AllBare :=
  .behind _ fun _ => .pure allBare_nil

/-- What a clause handles is bare. -/
theorem bare_exceptParts : exceptParts.Finds AllBare := by
  have value := bare_kept bare_expression
  refine .behind _ fun _ => .behind _ fun _ => .behind _ fun all => .ite (.pure allBare_nil) ?_
  refine .bind value fun handled bare => .behind _ fun named => .ite (.behind _ fun _ => .pure bare) ?_
  exact .behind _ fun old => .ite (.bind value fun _ others => .pure (bare.append others)) (.pure bare)

/-- A resource is bare. -/
theorem bare_withItem : withItem.Finds AllBare := by
  refine .bind (bare_kept bare_expression) fun value bare => .behind _ fun bound => .ite ?_ (.pure bare)
  refine .bind (bare_starOr bare_primary bare_primary) fun target other => .ite (.pure ?_) .fail
  exact bare.append other.inside

/-- Resources in parentheses are bare. -/
theorem bare_groupedItems : groupedItems.Finds AllBare :=
  .behind _ fun _ => .bind (.commaSeparated _ bare_withItem) fun _ bare => .behind _ fun _ => .behind _ fun _ =>
    .ite (.pure (.flatten bare)) .fail

/-- The resources of a statement are bare. -/
theorem bare_withParts : withParts.Finds AllBare := by
  refine .behind _ fun _ => .behind _ fun _ => .bind (.attempt bare_groupedItems) fun held bare => ?_
  split
  · exact .pure (bare _ rfl)
  · exact .bind (.commaSeparated _ bare_withItem) fun found others => .unless (.pure (.flatten others))

/-- A case is bare. -/
theorem bare_caseParts : caseParts.Finds AllBare :=
  .behind _ fun _ => .behind _ fun _ => .behind _ fun _ => .ite (bare_kept bare_expression) (.pure allBare_nil)

/-- The parts of a function may be those of a header. -/
theorem part_functionParts : functionParts.Finds AllParts := by
  have found := Finds.commaSeparated (sees ")") (bare_parameter bare_primary bare_expression true)
  have list := part_withTrivia <| @part_node .parameters rfl .parameters _
    (.behind (expect "(") fun _ => .bind found fun _ bare => .behind (expect ")") fun _ => .pure bare)
  refine .behind _ fun start => .behind _ fun isAsync => ?_
  extract_lets rest
  have finds : ∀ async, AllBare async → (rest async).Finds AllParts := by
    refine fun async bare => .behind _ fun _ => .bind (bare_nameNode rfl) fun name names => ?_
    refine .bind bare_typeParameters fun generics types => .bind list fun parameters lists => ?_
    refine .behind _ fun returns => part_optional rfl (part_typeNode bare_expression) fun returned result => .pure ?_
    exact ((((bare.append names.alone).append types).allParts).append (lists.alone rfl)).append result
  split
  · exact .behind _ fun _ => .bind (.pure (Node.Bare.of_parts rfl rfl allBare_nil).alone) finds
  · exact .bind (.pure allBare_nil) finds

/-- The parts of a class may be those of a header. -/
theorem part_classParts : classParts.Finds AllParts := by
  have list := part_withTrivia (@part_node .arguments rfl .bases _ (bare_plainArguments bare_expression))
  refine .behind _ fun _ => .bind (bare_nameNode rfl) fun name bare => ?_
  refine .bind bare_typeParameters fun generics types => .behind _ fun given => ?_
  exact part_optional rfl list fun bases others => .pure ((bare.alone.append types).allParts.append others)

/-- The lines of blocks and modules hold what is bare. -/
theorem bare_lineContent : lineContent.Finds Content.Bare := by
  refine .behind _ fun symbol => ?_
  split
  · exact bare_header (bare_conditionParts _)
  · exact bare_header (bare_conditionParts _)
  · exact bare_header bare_forParts
  · exact bare_header (bare_wordParts _)
  · exact bare_header bare_withParts
  · exact part_header part_functionParts
  · exact part_header part_classParts
  · refine .behind _ fun _ => .bind (bare_kept bare_expression) fun _ bare => .behind _ fun _ => ?_
    exact .pure (.decorator bare)
  · refine .behind _ fun second => ?_
    split
    · exact part_header part_functionParts
    · exact bare_header bare_forParts
    · exact bare_header bare_withParts
    · exact bare_simpleContent
  · have subject : matchContent.Finds Content.Bare :=
      .behind _ fun _ => .bind (bare_kept bare_items) fun _ bare => .behind _ fun _ => .behind _ fun _ =>
        .pure (.header bare.allParts (by simp))
    refine .bind (.attempt subject) fun found bare => ?_
    split
    · exact .pure (bare _ rfl)
    · exact bare_simpleContent
  · exact bare_simpleContent

/-- The lines of a match statement hold what is bare. -/
theorem bare_caseContent : caseContent.Finds Content.Bare := bare_header bare_caseParts

/-- The lines of clauses hold what is bare. -/
theorem bare_clauseContent (word : String) : (clauseContent word).Finds Content.Bare := by
  unfold clauseContent
  split
  · exact bare_header (bare_conditionParts _)
  · exact bare_header bare_exceptParts
  · exact bare_header (bare_wordParts _)

end Lines

end SourceOutline.Python
