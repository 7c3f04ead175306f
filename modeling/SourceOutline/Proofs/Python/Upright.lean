import SourceOutline.Proofs.Python.Definitions
import SourceOutline.Proofs.Python.Spanning

/-! The types and the bases of definitions, and imports, stand on tokens of their lines. -/

namespace SourceOutline.Python

open Parse

/-- A node is a comment or a join among the tokens. -/
def Node.IsAside (given : List Token) (node : Node) : Prop :=
  ∃ token ∈ given, token.symbol.isTrivia = true ∧ node = token.triviaNode

/-- What a part of a header holds for the outline stands on tokens: the types of parameters, the type of the result,
and bases, among which comments and joins may stand. -/
structure Node.Upright (given : List Token) (part : Node) : Prop where
  /-- The type of the result stands on tokens. -/
  returns : part.role = .returns → part.Stands given
  /-- The types of parameters stand on tokens. -/
  types : part.role = .parameters → ∀ parameter ∈ part.children, parameter.TypesStand given
  /-- Bases stand on tokens, or are comments or joins. -/
  bases : part.role = .bases → ∀ base ∈ part.children, base.Stands given ∨ base.IsAside given

namespace Node.Upright

variable {given more : List Token} {part : Node}

/-- What stands on tokens stands among more of them. -/
theorem mono (upright : part.Upright given) (among : given <:+: more) : part.Upright more where
  returns role := (upright.returns role).mono among
  types role parameter member := (upright.types role parameter member).mono among
  bases role base member := (upright.bases role base member).imp (fun stands => stands.mono among)
    fun ⟨token, inside, aside⟩ => ⟨token, among.subset inside, aside⟩

/-- What is no part of a header holds nothing for the outline. -/
theorem of_inner (inner : part.role.isInner = true) : part.Upright given := by
  constructor <;> intro role <;> rw [role] at inner <;> cases inner

end Node.Upright

/-- A node put among others is one of the nodes then. -/
theorem mem_insertNode {node other : Node} {nodes : List Node} (member : other ∈ insertNode node nodes) :
    other = node ∨ other ∈ nodes := by
  induction nodes with
  | nil => exact .inl (List.mem_singleton.mp member)
  | cons first rest ih =>
    rw [insertNode] at member
    split at member
    · exact List.mem_cons.mp member
    · rcases List.mem_cons.mp member with rfl | inside
      · exact .inr List.mem_cons_self
      · exact (ih inside).imp_right (List.mem_cons_of_mem _)

/-- A node gets only comments and joins as further parts. -/
theorem mem_children_withTrivia {node other : Node} {trivia : List Token}
    (member : other ∈ (node.withTrivia trivia).children) :
    other ∈ node.children ∨ ∃ token ∈ trivia, other = token.triviaNode := by
  obtain ⟨kind, role, start, stop, parts⟩ := node
  have each : ∀ inside ⊆ trivia, ∀ nodes : List Node,
      other ∈ inside.foldl (fun nodes token => insertNode token.triviaNode nodes) nodes →
        other ∈ nodes ∨ ∃ token ∈ trivia, other = token.triviaNode := by
    intro inside
    induction inside with
    | nil => exact fun _ nodes found => .inl found
    | cons token rest ih =>
      intro among nodes found
      obtain ⟨here, later⟩ := List.cons_subset.mp among
      rcases ih later _ found with inside | aside
      · exact (mem_insertNode inside).symm.imp_right fun same => ⟨token, here, same⟩
      · exact .inr aside
  exact each _ (fun token inside => List.takeWhile_subset _ (List.mem_of_mem_filter inside)) parts member

section

variable {origin : Cursor}

/-- A node with its comments and joins gets them from the tokens passed. -/
theorem reads_withTrivia (fresh : origin.trivia = []) {parser : Parse Node} {good : List Token → Node → Prop}
    (reads : parser.Reads origin good) :
    parser.withTrivia.Reads origin fun passed node => ∃ inner, good passed inner ∧ node.role = inner.role ∧
      ∀ part ∈ node.children, part ∈ inner.children ∨ part.IsAside passed := by
  intro before cursor since found moved run
  obtain ⟨node, further, parsed, built⟩ := bind_eq_some.mp run
  cases built
  obtain ⟨later, passes, holds⟩ := reads _ _ since _ _ parsed
  refine ⟨later, passes, node, holds, by cases node; rfl, fun part member => ?_⟩
  refine (mem_children_withTrivia member).imp_right fun ⟨token, among, same⟩ => ?_
  rw [(since.trans passes).trivia, fresh, List.append_nil, List.mem_reverse, List.mem_filter] at among
  exact ⟨token, among.1, among.2, same⟩

/-- A part that may be missing is read when it is there. -/
theorem reads_optional {α : Type} {given : Prop} [Decidable given] {parser : Parse Node}
    {fine : List Token → Node → Prop} (reads : parser.Reads origin fine) {rest : List Node → Parse α}
    {good : List Token → α → Prop} (missing : (rest []).Reads origin good)
    (found : ∀ before node, fine before node →
      (rest [node]).Reads origin fun passed result => before <+: passed → good passed result) :
    (if given then parser >>= fun node => pure [node] >>= rest else pure [] >>= rest : Parse α).Reads origin good :=
  .ite (.bind reads found) missing

/-- The parts of a function hold types that stand on their tokens. -/
theorem reads_functionParts (fresh : origin.trivia = []) :
    functionParts.Reads origin fun passed parts => ∀ part ∈ parts, part.Upright passed := by
  have parameter : (parameter primary expression true).Reads origin fun passed parameter =>
      parameter.TypesStand passed := reads_parameter true
  have inside : Parse.Reads origin (do
      expect "("
      let found ← commaSeparated (sees ")") (Python.parameter primary expression true)
      expect ")"
      return found.1 : Parse (List Node)) fun passed found => ∀ parameter ∈ found, parameter.TypesStand passed := by
    refine .behind _ fun _ => .bind (.commaSeparated _ parameter ?_) fun _ found stand => .behind _ fun _ => .pure ?_
    · exact fun _ _ _ more stand => stand.mono more.isInfix
    · exact fun passed more parameter member => (stand parameter member).mono more.isInfix
  have list := reads_withTrivia fresh (reads_node .parameters .parameters inside)
  refine .behind _ fun start => .behind _ fun isAsync => ?_
  extract_lets rest
  have finds : ∀ async, AllBare async → (rest async).Reads origin fun passed parts =>
      ∀ part ∈ parts, part.Upright passed := by
    refine fun async bare => .behind _ fun _ => .bind (.of_finds (bare_nameNode rfl)) fun _ name names => ?_
    refine .bind (.of_finds bare_typeParameters) fun _ generics types => ?_
    refine .bind list fun before parameters ⟨inner, own, role, parts⟩ => .behind _ fun given => ?_
    have front := (bare.append names.alone).append types
    have upright : ∀ {passed}, before <+: passed → ∀ part ∈ async ++ [name] ++ generics ++ [parameters],
        part.Upright passed := by
      intro passed more part member
      rcases List.mem_append.mp member with among | alone
      · exact .of_inner (front part among).inside
      · rw [List.mem_singleton.mp alone]
        have list : parameters.role = .parameters := role.trans own.2.1
        refine ⟨fun other => ?_, fun _ parameter member => ?_, fun other => ?_⟩
        · cases list.symm.trans other
        · rcases parts parameter member with child | ⟨token, _, _, rfl⟩
          · exact (own.2.2.2 parameter child).mono more.isInfix
          · exact .of_leaf rfl
        · cases list.symm.trans other
    refine reads_optional (reads_expressionNode .returns) (.pure fun passed more _ _ => ?_)
      fun own type stands => .pure fun passed here more _ _ => ?_
    · rw [List.append_nil]
      exact upright more
    · refine List.forall_mem_append.mpr ⟨upright more, List.forall_mem_singleton.mpr ?_⟩
      refine ⟨fun _ => stands.2.mono here.isInfix, fun other => ?_, fun other => ?_⟩
      all_goals cases stands.1.symm.trans other
  split
  · exact .behind _ fun _ => finds _ (Node.Bare.of_parts rfl rfl allBare_nil).alone
  · exact finds _ allBare_nil

/-- The parts of a class hold bases that stand on their tokens. -/
theorem reads_classParts (fresh : origin.trivia = []) :
    classParts.Reads origin fun passed parts => ∀ part ∈ parts, part.Upright passed := by
  have argument : (argument expression).Reads origin fun passed base => base.Stands passed := by
    refine .behind _ fun symbol => .behind _ fun second => .ite ?_ ?_
    · exact reads_standing .keywordArgument .part
    · exact (reads_expressionNode .part).imp fun _ _ own => own.2
  have inside : (plainArguments expression).Reads origin fun passed found => ∀ base ∈ found, base.Stands passed := by
    refine .behind _ fun _ => .bind (.commaSeparated _ argument ?_) fun _ found stand => .behind _ fun _ => .pure ?_
    · exact fun _ _ _ more stands => stands.mono more.isInfix
    · exact fun passed more base member => (stand base member).mono more.isInfix
  have list := reads_withTrivia fresh (reads_node .arguments .bases inside)
  refine .behind _ fun _ => .bind (.of_finds (bare_nameNode rfl)) fun _ name bare => ?_
  refine .bind (.of_finds bare_typeParameters) fun _ generics types => .behind _ fun given => ?_
  have front : ∀ {passed}, ∀ part ∈ [name] ++ generics, part.Upright passed := fun part member =>
    .of_inner ((bare.alone.append types) part member).inside
  refine reads_optional list (.pure fun passed _ _ => ?_) fun before bases ⟨inner, own, role, parts⟩ =>
    .pure fun passed more _ _ => ?_
  · rw [List.append_nil]
    exact front
  · refine List.forall_mem_append.mpr ⟨front, List.forall_mem_singleton.mpr ?_⟩
    have list : bases.role = .bases := role.trans own.2.1
    refine ⟨fun other => ?_, fun other => ?_, fun _ base member => ?_⟩
    · cases list.symm.trans other
    · cases list.symm.trans other
    · rcases parts base member with child | ⟨token, among, aside, same⟩
      · exact .inl ((own.2.2.2 base child).mono more.isInfix)
      · exact .inr ⟨token, more.subset among, aside, same⟩

/-- A node of another kind is no import. -/
theorem finds_other {kind : Kind} (other : kind ≠ .importStatement) {parts : Parse (List Node)} :
    (node kind .part parts).Finds fun statement => statement.kind ≠ .importStatement := by
  intro cursor found moved run
  rw [finds_node kind .part parts cursor found moved run]
  exact other

/-- A statement that imports stands on its tokens. -/
theorem reads_simpleStatement :
    simpleStatement.Reads origin fun passed statement => statement.kind = .importStatement → statement.Stands passed := by
  have imports : ∀ {parts : Parse (List Node)} [Takes parts], (node .importStatement .part parts).Reads origin
      fun passed statement => statement.kind = .importStatement → statement.Stands passed := fun {parts} _ =>
    (reads_standing _ _).imp fun _ _ stands _ => stands
  have spared : ∀ {parser : Parse Node} [Moves parser],
      (parser.Finds fun statement => statement.kind ≠ .importStatement) →
        parser.Reads origin fun passed statement => statement.kind = .importStatement → statement.Stands passed :=
    fun finds => (Reads.of_finds finds).imp fun _ _ other same => absurd same other
  have plain : (node .expressionStatement .part expressions).withTrivia.Finds
      fun statement => statement.kind ≠ .importStatement :=
    .bind (finds_other (by decide)) fun statement other => .behind get fun _ => .pure (by cases statement; exact other)
  refine .behind next fun symbol => ?_
  split
  case h_1 | h_2 => exact imports
  case h_12 =>
    refine .behind seesPrint fun old => .ite ?_ (spared plain)
    refine .bind (.of_finds (.attempt (finds_other (by decide)))) fun _ found others => ?_
    split
    · exact .pure fun _ _ same => absurd same (others _ rfl)
    · exact (spared plain).imp fun _ _ holds _ => holds
  case h_13 | h_14 => exact .behind afterNext fun second => .ite (spared (finds_other (by decide))) (spared plain)
  case h_15 => exact spared plain
  all_goals exact spared (finds_other (by decide))

/-- The imports of a line without a body stand on tokens in front of its end. -/
theorem reads_simpleLine : simpleLine.Reads origin fun passed found => ∃ inner, inner <+: passed ∧
    inner.length < passed.length ∧ ∀ statement ∈ found, statement.kind = .importStatement → statement.Stands inner := by
  intro before cursor since found moved run
  obtain ⟨first, middle, one, rest⟩ := bind_eq_some.mp run
  obtain ⟨later, further, two, closed⟩ := bind_eq_some.mp rest
  obtain ⟨_, last, ended, same⟩ := bind_eq_some.mp closed
  cases same
  have stays : ∀ (passed more : List Token) (statement : Node), passed <+: more →
      (statement.kind = .importStatement → statement.Stands passed) →
        statement.kind = .importStatement → statement.Stands more :=
    fun _ _ _ among stands kind => (stands kind).mono among.isInfix
  obtain ⟨own, passes, holds⟩ := reads_simpleStatement _ _ since _ _ one
  obtain ⟨others, passes', all⟩ :=
    Reads.repeatWhile _ reads_simpleStatement stays _ _ (since.trans passes) _ _ two
  obtain ⟨final, passes'', token, member, _⟩ := (takes_symbol .newline).passes ended
  refine ⟨own ++ others ++ final, (passes.trans passes').trans passes'', before ++ own ++ others, ?_, ?_, ?_⟩
  · exact ⟨final, by simp⟩
  · have some_token := List.length_pos_of_mem member
    simp only [List.length_append]
    omega
  · refine List.forall_mem_cons.mpr ⟨stays _ _ _ (List.prefix_append _ _) holds, all⟩

end

instance takes_lineBody : Takes lineBody := by unfold lineBody; infer_instance

instance takes_matchContent : Takes matchContent := by unfold matchContent; infer_instance

/-- What a line holds for the outline stands on tokens: imports, and parts of the headers of definitions. -/
inductive Content.Upright (given : List Token) : Content → Prop where
  /-- Imports stand on tokens. -/
  | simple {found : List Node}
    (imports : ∀ statement ∈ found, statement.kind = .importStatement → statement.Stands given) :
    Upright given (.simple found)
  /-- Decorators hold nothing for the outline. -/
  | decorator (applied : List Node) : Upright given (.decorator applied)
  /-- The parts of a definition stand on tokens. -/
  | header {head : Head} (parts : head.kind.defines = true → ∀ part ∈ head.parts, part.Upright given) :
    Upright given (.header head)

/-- What stands on tokens stands among more of them. -/
theorem Content.Upright.mono {given more : List Token} {content : Content} (upright : content.Upright given)
    (among : given <:+: more) : content.Upright more := by
  cases upright with
  | simple imports => exact .simple fun statement member kind => (imports statement member kind).mono among
  | decorator applied => exact .decorator applied
  | header parts => exact .header fun defines part member => (parts defines part member).mono among

/-- What is found on a line stands on tokens in front of its end. -/
def StandsInFront (origin : Cursor) (content : Content) : Prop :=
  ∃ inner, inner <+: origin.tokens ∧ inner.length < origin.tokens.length ∧ content.Upright inner

/-- What is found stands on tokens in front of the end of the line, wherever on the line the parser starts. -/
def Parse.Rights (origin : Cursor) (parser : Parse Content) : Prop :=
  ∀ before cursor, origin.Passes cursor before → ∀ content moved, parser cursor = some (content, moved) →
    StandsInFront origin content

section

variable {origin : Cursor}

/-- What stands in front of the last token passed stands in front of the end of the line. -/
theorem Parse.Rights.of_reads {parser : Parse Content}
    (reads : parser.Reads origin fun passed content => ∃ inner, inner <+: passed ∧ inner.length < passed.length ∧
      content.Upright inner) : parser.Rights origin := by
  intro before cursor since content moved run
  obtain ⟨later, passes, inner, front, shorter, upright⟩ := reads _ _ since _ _ run
  have among : before ++ later <+: origin.tokens := ⟨moved.tokens, (since.trans passes).tokens.symm⟩
  exact ⟨inner, front.trans among, Nat.lt_of_lt_of_le shorter among.length_le, upright⟩

/-- What stands on tokens behind another parser does so wherever that one starts. -/
theorem Parse.Rights.behind {α : Type} (first : Parse α) [moves : Moves first] {second : α → Parse Content}
    (rights : ∀ value, (second value).Rights origin) : (first >>= second).Rights origin := by
  intro before cursor since content moved run
  obtain ⟨found, middle, one, two⟩ := bind_eq_some.mp run
  obtain ⟨own, passes⟩ := moves.passes one
  exact rights found _ _ (since.trans passes) _ _ two

/-- Statements without a body import on tokens in front of the end of their line. -/
theorem rights_simpleContent : simpleContent.Rights origin :=
  .of_reads <| .bind reads_simpleLine fun _ _ ⟨inner, front, shorter, imports⟩ => .pure fun _ more =>
    ⟨inner, front.trans more, Nat.lt_of_lt_of_le shorter more.length_le, .simple imports⟩

/-- The parts of a header stand in front of its colon. -/
theorem rights_header {kind : Kind} {stage : Stage} {parts : Parse (List Node)}
    (reads : parts.Reads origin fun passed found => ∀ part ∈ found, part.Upright passed) :
    (header kind stage parts).Rights origin := by
  refine .of_reads fun before cursor since content moved run => ?_
  obtain ⟨found, middle, one, rest⟩ := bind_eq_some.mp run
  obtain ⟨body, last, ended, same⟩ := bind_eq_some.mp rest
  cases same
  obtain ⟨own, passes, upright⟩ := reads _ _ since _ _ one
  obtain ⟨final, passes', token, member, _⟩ := takes_lineBody.passes ended
  refine ⟨own ++ final, passes.trans passes', before ++ own, ⟨final, by simp⟩, ?_, .header fun _ => upright⟩
  have some_token := List.length_pos_of_mem member
  simp only [List.length_append]
  omega

variable (some_token : origin.tokens ≠ [])

include some_token

/-- Headers that define nothing hold nothing for the outline. -/
theorem rights_of_finds {parser : Parse Content} (finds : parser.Finds fun content => ∀ given, content.Upright given) :
    parser.Rights origin := fun _ _ _ _ _ run =>
  ⟨[], List.nil_prefix, List.length_pos_iff.mpr some_token, finds _ _ _ run []⟩

/-- A header of another statement holds nothing for the outline. -/
theorem rights_other {stage : Stage} {parts : Parse (List Node)} : (header .statement stage parts).Rights origin :=
  rights_of_finds some_token <| .behind parts fun _ => .behind lineBody fun _ =>
    .pure fun _ => .header fun defines => by cases defines

/-- What a line holds for the outline stands on tokens in front of its end. -/
theorem rights_lineContent (fresh : origin.trivia = []) : lineContent.Rights origin := by
  refine .behind next fun symbol => ?_
  split
  case h_6 => exact rights_header (reads_functionParts fresh)
  case h_7 => exact rights_header (reads_classParts fresh)
  case h_8 =>
    refine rights_of_finds some_token (.behind _ fun _ => .behind _ fun applied => .behind _ fun _ => ?_)
    exact .pure fun _ => .decorator applied
  case h_9 =>
    refine .behind afterNext fun second => ?_
    split
    · exact rights_header (reads_functionParts fresh)
    · exact rights_other some_token
    · exact rights_other some_token
    · exact rights_simpleContent
  case h_10 =>
    -- A match statement is tried first and defines nothing.
    have subject : matchContent.Finds fun content => ∀ given, content.Upright given :=
      .behind _ fun _ => .behind _ fun _ => .behind _ fun _ => .behind _ fun _ =>
        .pure fun _ => .header fun defines => by cases defines
    intro before cursor since content moved run
    obtain ⟨found, middle, tried, rest⟩ := bind_eq_some.mp run
    have holds := Finds.attempt subject _ _ _ tried
    cases found with
    | none =>
      obtain ⟨own, passes⟩ := (moves_attempt matchContent).passes tried
      exact rights_simpleContent _ _ (since.trans passes) _ _ rest
    | some value =>
      cases rest
      exact ⟨[], List.nil_prefix, List.length_pos_iff.mpr some_token, holds _ rfl []⟩
  case h_11 => exact rights_simpleContent
  all_goals exact rights_other some_token

end

/-- A token with other places. -/
def Token.relocate (move : Mark → Mark) (token : Token) : Token :=
  ⟨token.symbol, move token.start, move token.stop⟩

/-- The numbered tokens of a line stand for its tokens. -/
theorem Line.map_relocate_writtenTokens (line : Line) :
    line.writtenTokens.map (Token.relocate line.place) = line.tokens := by
  refine List.ext_getElem (by simp [Line.writtenTokens]) fun index below inside => ?_
  have half : (2 * index + 1) / 2 = index := by omega
  simp [Line.writtenTokens, Line.numbered, Line.place, Token.relocate, half, inside]

section

variable {given : List Token} (move : Mark → Mark)

/-- Nodes stand on tokens that are moved along. -/
theorem Node.Stands.relocate {node : Node} (stands : node.Stands given) :
    (node.relocate move).Stands (given.map (Token.relocate move)) := by
  obtain ⟨span, inside, ⟨first, starts, written, start⟩, last, ends, written', stop⟩ := stands
  refine ⟨span.map (Token.relocate move), inside.map _, ⟨first.relocate move, by simp [starts], written, ?_⟩,
    last.relocate move, by simp [ends], written', ?_⟩
  · rw [start_relocate, ← start]
    rfl
  · rw [stop_relocate, ← stop]
    rfl

/-- Types stand on tokens that are moved along. -/
theorem Node.TypesStand.relocate {parameter : Node} (stand : parameter.TypesStand given) :
    (parameter.relocate move).TypesStand (given.map (Token.relocate move)) := by
  intro kind type member role
  rw [children_relocate] at member
  obtain ⟨old, among, rfl⟩ := List.mem_map.mp member
  rw [kind_relocate] at kind
  rw [role_relocate] at role
  exact (stand kind old among role).relocate move

/-- The parts of a header stand on tokens that are moved along. -/
theorem Node.Upright.relocate {part : Node} (upright : part.Upright given) :
    (part.relocate move).Upright (given.map (Token.relocate move)) := by
  obtain ⟨returns, types, bases⟩ := upright
  refine ⟨fun role => ?_, fun role parameter member => ?_, fun role base member => ?_⟩
  · exact (returns (role_relocate move part ▸ role)).relocate move
  · rw [children_relocate] at member
    obtain ⟨old, among, rfl⟩ := List.mem_map.mp member
    exact (types (role_relocate move part ▸ role) old among).relocate move
  · rw [children_relocate] at member
    obtain ⟨old, among, rfl⟩ := List.mem_map.mp member
    refine (bases (role_relocate move part ▸ role) old among).imp (fun stands => stands.relocate move) ?_
    rintro ⟨token, inside, aside, rfl⟩
    exact ⟨token.relocate move, List.mem_map_of_mem inside, aside, rfl⟩

/-- What a line holds stands on tokens that are moved along. -/
theorem Content.Upright.relocate {content : Content} (upright : content.Upright given) :
    (content.relocate move).Upright (given.map (Token.relocate move)) := by
  cases upright with
  | simple imports =>
    refine .simple fun statement member kind => ?_
    rw [relocateAll_eq_map] at member
    obtain ⟨old, among, rfl⟩ := List.mem_map.mp member
    exact (imports old among (kind_relocate move old ▸ kind)).relocate move
  | decorator applied => exact .decorator _
  | header parts =>
    refine .header fun defines part member => ?_
    rw [relocateAll_eq_map] at member
    obtain ⟨old, among, rfl⟩ := List.mem_map.mp member
    exact (parts defines old among).relocate move

end

/-- What a line holds for the outline stands on its tokens. -/
theorem Line.read_upright {line : Line} {content : Content} (read : line.read lineContent = some content) :
    content.Upright line.tokens := by
  obtain ⟨⟨parsed, moved⟩, run, rfl⟩ := Option.map_eq_some_iff.mp read
  have some_token : line.numberedTokens ≠ [] := by simp [Line.numberedTokens_eq]
  obtain ⟨inner, front, shorter, upright⟩ :=
    @rights_lineContent ⟨line.numberedTokens, {}, [], _⟩ some_token rfl _ _ (.refl _) _ _ run
  rw [Line.numberedTokens_eq] at front shorter
  have among : inner <+: line.writtenTokens := by
    rcases List.prefix_concat_iff.mp front with rfl | inside
    · simp at shorter
    · exact inside
  have whole := (upright.mono among.isInfix).relocate line.place
  rwa [line.map_relocate_writtenTokens] at whole

end SourceOutline.Python
