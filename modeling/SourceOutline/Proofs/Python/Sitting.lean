import SourceOutline.Proofs.Python.Definitions
import SourceOutline.Proofs.Python.Spanning

/-! Where the statements on a line start: each on one of its tokens, the first one on the first token. -/

namespace SourceOutline.Python

open Parse

/-- The place where the next token that is written starts. -/
def Cursor.front (cursor : Cursor) : Mark :=
  ((cursor.tokens.find? Token.isWritten).map Token.start).getD cursor.last

/-- Behind comments and joins stands the first token that is written. -/
theorem head?_passTrivia (passed tokens : List Token) :
    (passTrivia passed tokens).2.head? = tokens.find? Token.isWritten := by
  induction tokens generalizing passed with
  | nil => rfl
  | cons token rest ih =>
    rw [passTrivia]
    split
    · rename_i aside
      rw [ih, List.find?_cons_of_neg (by simp [Token.isWritten, aside])]
    · rename_i plain
      rw [List.find?_cons_of_pos (by simpa [Token.isWritten] using plain)]
      rfl

/-- Comments and joins do not move the place of the next token. -/
theorem Cursor.front_settle (cursor : Cursor) : cursor.settle.front = cursor.front := by
  have settled : cursor.settle.settle.tokens.head? = cursor.settle.tokens.find? Token.isWritten :=
    head?_passTrivia _ _
  have own : cursor.settle.tokens.head? = cursor.tokens.find? Token.isWritten := head?_passTrivia _ _
  rw [Cursor.settle_settle] at settled
  rw [Cursor.front, Cursor.front, ← settled, own]
  rfl

/-- What a parser finds is good for the place where the next token starts. -/
def Parse.Fronts {α : Type} (parser : Parse α) (good : Mark → α → Prop) : Prop :=
  ∀ cursor found moved, parser cursor = some (found, moved) → good cursor.front found

/-- A node starts at a place and is a statement of its suite. -/
structure Node.Opens (mark : Mark) (node : Node) : Prop where
  /-- It starts at the place. -/
  start : node.start = mark
  /-- It is more than a keyword. -/
  named : node.isNamed = true
  /-- It is no comment. -/
  spoken : node.isComment = false

namespace Parse.Fronts

variable {α β : Type} {good : Mark → α → Prop} {parser second : Parse α}

/-- A node starts with the next token. -/
theorem node {kind : Kind} (spoken : kind ≠ .asyncKeyword ∧ kind ≠ .comment) (role : Role)
    (children : Parse (List Node)) : (Parse.node kind role children).Fronts Node.Opens := by
  intro cursor found moved run
  obtain ⟨start, settled, seen, rest⟩ := bind_eq_some.mp run
  obtain ⟨parts, further, _, built⟩ := bind_eq_some.mp rest
  cases (here_eq cursor).symm.trans seen
  cases built
  refine ⟨?_, by simpa [Node.isNamed, Node.kind] using spoken.1, by simpa [Node.isComment, Node.kind] using spoken.2⟩
  show (cursor.settle.tokens.head?.map Token.start).getD _ = _
  rw [show cursor.settle.tokens.head? = _ from head?_passTrivia _ _]
  rfl

/-- Comments and joins in a node do not move it. -/
theorem withTrivia {parser : Parse Node} (starts : parser.Fronts Node.Opens) :
    parser.withTrivia.Fronts Node.Opens := by
  intro cursor found moved run
  obtain ⟨node, further, parsed, built⟩ := bind_eq_some.mp run
  cases built
  have opens := starts cursor node moved parsed
  cases node
  exact ⟨opens.start, opens.named, opens.spoken⟩

/-- What is found behind a look at the next token is good for it. -/
theorem behind {first : Parse β} (looks : ∀ cursor value moved, first cursor = some (value, moved) →
      moved = cursor.settle) {rest : β → Parse α} (fronts : ∀ value, (rest value).Fronts good) :
    (first >>= rest).Fronts good := by
  intro cursor found moved run
  obtain ⟨value, middle, looked, later⟩ := bind_eq_some.mp run
  have holds := fronts value _ _ _ later
  rwa [looks cursor value middle looked, Cursor.front_settle] at holds

/-- What either of two parsers finds is good for the next token. -/
theorem ite {condition : Prop} [Decidable condition] (fronts : parser.Fronts good) (fronts' : second.Fronts good) :
    (if condition then parser else second).Fronts good := by
  split
  · exact fronts
  · exact fronts'

/-- What a parser finds, or else another one, is good for the next token. -/
theorem orElse {rest : Option α → Parse α} (done : ∀ value, rest (some value) = pure value)
    (fronts : parser.Fronts good) (fronts' : (rest none).Fronts good) : (attempt parser >>= rest).Fronts good := by
  intro cursor found moved run
  obtain ⟨value, middle, tried, later⟩ := bind_eq_some.mp run
  unfold attempt at tried
  split at tried
  · rename_i statement further parsed
    cases tried
    rw [done] at later
    cases later
    exact fronts _ _ _ parsed
  · cases tried
    exact fronts' _ _ _ later

/-- What is good for every token is so for the next one. -/
theorem of_finds (finds : parser.Finds fun value => ∀ mark, good mark value) : parser.Fronts good :=
  fun cursor found moved run => finds cursor found moved run _

end Parse.Fronts

/-- A look at the next token passes comments and joins. -/
theorem settles_next (cursor : Cursor) (symbol : Symbol) (moved : Cursor) (run : next cursor = some (symbol, moved)) :
    moved = cursor.settle := by
  cases (next_eq cursor).symm.trans run
  rfl

/-- A look at the token behind the next one passes the comments and joins in front of that. -/
theorem settles_afterNext (cursor : Cursor) (symbol : Symbol) (moved : Cursor)
    (run : afterNext cursor = some (symbol, moved)) : moved = cursor.settle := by
  simp only [afterNext] at run
  split at run <;> (cases run; rfl)

/-- Asking for a print statement of the old form passes no more. -/
theorem settles_seesPrint (cursor : Cursor) (old : Bool) (moved : Cursor) (run : seesPrint cursor = some (old, moved)) :
    moved = cursor.settle := by
  obtain ⟨second, middle, looked, rest⟩ := bind_eq_some.mp run
  cases rest
  exact settles_afterNext _ _ _ looked

/-- A statement without a body starts with the next token. -/
theorem fronts_simpleStatement : simpleStatement.Fronts Node.Opens := by
  have plain : (node .expressionStatement .part expressions).withTrivia.Fronts Node.Opens :=
    .withTrivia (.node (by decide) _ _)
  refine .behind settles_next fun symbol => ?_
  split
  case h_12 =>
    exact .behind settles_seesPrint fun old => .ite (.orElse (fun _ => rfl) (.node (by decide) _ _) plain) plain
  case h_13 => exact .behind settles_afterNext fun second => .ite (.node (by decide) _ _) plain
  case h_14 => exact .behind settles_afterNext fun second => .ite (.node (by decide) _ _) plain
  case h_15 => exact plain
  all_goals exact .node (by decide) _ _

/-- Tokens are taken for items when what follows refuses to go on without any. -/
theorem takes_behind_items {α β : Type} (ends : Parse Bool) (item : Parse α) [Moves ends] [Takes item]
    {second : List α × Bool → Parse β} (moves : ∀ found, Moves (second found))
    (refuses : ∀ found, found.1 = [] → ∀ cursor, second found cursor = none) :
    Takes (commaSeparated ends item >>= second) := ⟨fun run => by
  obtain ⟨found, middle, parsed, rest⟩ := bind_eq_some.mp run
  have given : found.1 ≠ [] := fun none => by
    rw [refuses found none] at rest
    cases rest
  obtain ⟨own, passes, token, member, written⟩ := passes_commaSeparated parsed given
  obtain ⟨later, passes'⟩ := (moves found).passes rest
  exact ⟨_, passes.trans passes', token, List.mem_append_left _ member, written⟩⟩

set_option synthInstance.maxSize 20000 in
instance takes_expressions : Takes expressions := by
  refine @takes_bind_second _ _ here _ _ fun start => @takes_bind_second _ _ (sees "yield") _ _ fun yields => ?_
  dsimp only
  refine @takes_ite _ _ _ _ _ inferInstance (takes_behind_items _ _ (fun found => ?_) fun found none cursor => ?_)
  · infer_instance
  · rw [none]
    rfl

instance takes_withTrivia (parser : Parse Node) [takes : Takes parser] : Takes parser.withTrivia := by
  unfold Parse.withTrivia; infer_instance

instance takes_simpleStatement : Takes simpleStatement := by
  refine @takes_bind_second _ _ next _ _ fun symbol => ?_
  split
  case h_12 =>
    refine @takes_bind_second _ _ seesPrint _ _ fun old =>
      @takes_ite _ _ _ _ _ ⟨fun {cursor _ _} run => ?_⟩ inferInstance
    obtain ⟨found, middle, tried, rest⟩ := bind_eq_some.mp run
    unfold attempt at tried
    split at tried
    · rename_i statement further parsed
      cases tried
      cases rest
      exact Takes.passes parsed
    · cases tried
      exact (takes_withTrivia (node .expressionStatement .part expressions)).passes rest
  all_goals infer_instance

/-- A statement starts with one of the tokens. -/
def Node.SitsOn (given : List Token) (statement : Node) : Prop :=
  ∃ token ∈ given, token.isWritten = true ∧ token.start = statement.start

/-- A statement that starts with a token does so among more of them. -/
theorem Node.SitsOn.mono {given more : List Token} {statement : Node} (sits : statement.SitsOn given)
    (among : given ⊆ more) : statement.SitsOn more := by
  obtain ⟨token, member, both⟩ := sits
  exact ⟨token, among member, both⟩

/-- A statement without a body starts with a token that is taken for it. -/
theorem sits_simpleStatement {origin : Cursor} :
    simpleStatement.Reads origin fun passed statement => statement.SitsOn passed := by
  intro before cursor since found moved run
  obtain ⟨later, passes, some_token⟩ := takes_simpleStatement.passes run
  have opens := fronts_simpleStatement cursor found moved run
  obtain ⟨first, seen⟩ := Option.isSome_iff_exists.mp (List.find?_isSome.mpr some_token)
  refine ⟨later, passes, first, List.mem_append_right _ (List.mem_of_find?_eq_some seen), List.find?_some seen, ?_⟩
  rw [opens.start, Cursor.front, passes.tokens, List.find?_append, seen]
  rfl

/-- The statements of a line start with tokens in front of its end. -/
theorem sits_simpleLine {cursor moved : Cursor} {found : List Node} (run : simpleLine cursor = some (found, moved)) :
    ∃ inner last back, cursor.tokens = inner ++ last :: back ∧ ∀ statement ∈ found, statement.SitsOn inner := by
  obtain ⟨first, middle, one, rest⟩ := bind_eq_some.mp run
  obtain ⟨later, further, two, closed⟩ := bind_eq_some.mp rest
  obtain ⟨_, last, ended, same⟩ := bind_eq_some.mp closed
  cases same
  have stays : ∀ (passed more : List Token) (statement : Node), passed <+: more → statement.SitsOn passed →
      statement.SitsOn more := fun _ _ _ among sits => sits.mono among.subset
  obtain ⟨own, passes, sits⟩ := @sits_simpleStatement cursor _ _ (.refl cursor) _ _ one
  obtain ⟨others, passes', all⟩ :=
    Reads.repeatWhile _ (@sits_simpleStatement cursor) stays _ _ passes _ _ two
  obtain ⟨final, passes'', token, member, _⟩ := (takes_symbol .newline).passes ended
  obtain ⟨end_, more, split⟩ := List.exists_cons_of_ne_nil (List.ne_nil_of_mem member)
  have whole := ((passes.trans passes').trans passes'').tokens
  refine ⟨own ++ others, end_, more ++ moved.tokens, by rw [whole, split]; simp, List.forall_mem_cons.mpr ⟨?_, ?_⟩⟩
  · exact sits.mono fun token member => List.mem_append_left others (by simpa using member)
  · exact all

/-- The statements on a line start with its tokens, and so do those of the body beside a header. -/
inductive Content.Sits (given : List Token) : Content → Prop where
  /-- Statements start with tokens. -/
  | simple {found : List Node} (sits : ∀ statement ∈ found, statement.SitsOn given) : Sits given (.simple found)
  /-- Decorators are no statements. -/
  | decorator (applied : List Node) : Sits given (.decorator applied)
  /-- The statements beside a header start with tokens. -/
  | header {head : Head}
    (body : ∀ block, head.body = some block → ∀ statement ∈ block.children, statement.SitsOn given) :
    Sits given (.header head)

section

variable {given : List Token} {α β : Type}

/-- What is found behind another parser is good when it is so wherever that one ends. -/
theorem Parse.Keeps.behind {first : Parse β} {fine : β → Prop} (keeps : Keeps given first fine) {second : β → Parse α}
    {good : α → Prop} (rest : ∀ value, Keeps given (second value) good) : Keeps given (first >>= second) good := by
  rw [keeps_iff] at keeps ⊢
  intro cursor within value moved run
  obtain ⟨found, middle, one, two⟩ := bind_eq_some.mp run
  exact keeps_iff.mp (rest found) _ (keeps _ within _ _ one).1 _ _ two

/-- What follows on something good may use it. -/
theorem Parse.Keeps.bind {first : Parse β} {fine : β → Prop} (keeps : Keeps given first fine) {second : β → Parse α}
    {good : α → Prop} (rest : ∀ value, fine value → Keeps given (second value) good) :
    Keeps given (first >>= second) good := by
  rw [keeps_iff] at keeps ⊢
  intro cursor within value moved run
  obtain ⟨found, middle, one, two⟩ := bind_eq_some.mp run
  obtain ⟨still, holds⟩ := keeps _ within _ _ one
  exact keeps_iff.mp (rest found holds) _ still _ _ two

/-- A given value is found without moving. -/
theorem Parse.Keeps.pure {value : α} {good : α → Prop} (holds : good value) :
    Keeps given (Pure.pure value : Parse α) good := by
  rw [keeps_iff]
  intro cursor within found moved run
  cases run
  exact ⟨within, holds⟩

/-- The statements of a line start with its tokens. -/
theorem simpleLine_sits : Keeps given simpleLine fun found => ∀ statement ∈ found, statement.SitsOn given := by
  rw [keeps_iff]
  intro cursor within found moved run
  refine ⟨(keeps_iff.mp simpleLine_spec cursor within found moved run).1, fun statement member => ?_⟩
  obtain ⟨inner, last, back, tokens, sits⟩ := sits_simpleLine run
  obtain ⟨ending, _, front, whole⟩ := within.suffix
  refine (sits statement member).mono fun token among => ?_
  rw [tokens] at whole
  have ends := congrArg List.dropLast whole
  rw [List.dropLast_concat, ← List.append_assoc, List.dropLast_append_of_ne_nil (List.cons_ne_nil last back)] at ends
  rw [← ends]
  simp [among]

/-- The statements of a body beside a header start with tokens. -/
theorem lineBody_sits : Keeps given lineBody fun found =>
    ∀ block, found = some block → ∀ statement ∈ block.children, statement.SitsOn given := by
  have stands : Keeps given Parse.behind fun _ => True :=
    keeps_iff.mpr fun cursor within value moved run => by cases run; exact ⟨within, trivial⟩
  refine .behind (expect_spec ":") fun _ => .behind next_spec fun symbol => ?_
  split
  · exact .behind (symbol_spec .newline) fun _ => .pure (by simp)
  · refine .bind (show Keeps given _ fun block : Node => ∀ statement ∈ block.children, statement.SitsOn given from ?_)
      fun block sits => ?_
    · exact .behind here_spec fun start => .bind simpleLine_sits fun found sits => .behind stands fun stop => .pure sits
    · exact .pure fun other same => Option.some.inj same ▸ sits

/-- The statements beside a header start with tokens, whatever the header is. -/
theorem header_sits {kind : Kind} {stage : Stage} {parts : Parse (List Node)} {fine : List Node → Prop}
    (keeps : Keeps given parts fine) : Keeps given (header kind stage parts) (Content.Sits given) :=
  .behind keeps fun _ => .bind lineBody_sits fun _ sits => .pure (.header sits)

/-- Statements without a body start with tokens. -/
theorem simpleContent_sits : Keeps given simpleContent (Content.Sits given) :=
  .bind simpleLine_sits fun _ sits => .pure (.simple sits)

/-- What stands on a line of a block or of a module starts with tokens. -/
theorem lineContent_sits : Keeps given lineContent (Content.Sits given) := by
  refine .behind next_spec fun symbol => ?_
  split
  case h_1 | h_2 => exact header_sits (conditionParts_spec _)
  case h_3 => exact header_sits forParts_spec
  case h_4 => exact header_sits (wordParts_spec _)
  case h_5 => exact header_sits withParts_spec
  case h_6 => exact header_sits functionParts_spec
  case h_7 => exact header_sits classParts_spec
  case h_8 =>
    have values : Keeps given (kept expression) (AllSpelled given) := kept_spec expression_spec
    exact .behind (expect_spec _) fun _ => .behind values fun applied => .behind (symbol_spec _) fun _ =>
      .pure (.decorator applied)
  case h_9 =>
    refine .behind afterNext_spec fun second => ?_
    split
    · exact header_sits functionParts_spec
    · exact header_sits forParts_spec
    · exact header_sits withParts_spec
    · exact simpleContent_sits
  case h_10 =>
    -- Behind the header of a match statement stands no body.
    have bare : Keeps given matchContent (Content.Sits given) := by
      have values : Keeps given (kept items) (AllSpelled given) := kept_spec items_spec
      exact .behind (expect_spec _) fun _ => .behind values fun _ => .behind (expect_spec _) fun _ =>
        .behind (symbol_spec _) fun _ => .pure (.header (by simp))
    refine .bind (attempt_spec bare) fun tried sits => ?_
    split
    · exact .pure (sits _ rfl)
    · exact simpleContent_sits
  case h_11 => exact simpleContent_sits

/-- What stands on a line of a clause starts with tokens. -/
theorem clauseContent_sits (word : String) : Keeps given (clauseContent word) (Content.Sits given) := by
  unfold clauseContent
  split
  · exact header_sits (conditionParts_spec _)
  · exact header_sits exceptParts_spec
  · exact header_sits (wordParts_spec _)

end

/-- Statements without a body, the first of which starts at a place. -/
def Content.LeadsAt (mark : Mark) : Content → Prop
  | .simple found => ∃ first later, found = first :: later ∧ first.Opens mark
  | _ => True

/-- Statements without a body start with the next token. -/
theorem fronts_simpleContent : simpleContent.Fronts Content.LeadsAt := by
  intro cursor content moved run
  obtain ⟨found, _, run, same⟩ := bind_eq_some.mp run
  cases same
  obtain ⟨first, _, one, rest⟩ := bind_eq_some.mp run
  obtain ⟨later, _, _, closed⟩ := bind_eq_some.mp rest
  obtain ⟨_, _, _, same⟩ := bind_eq_some.mp closed
  cases same
  exact ⟨first, later, rfl, fronts_simpleStatement _ _ _ one⟩

/-- Statements without a body on a line start with the next token. -/
theorem fronts_lineContent : lineContent.Fronts Content.LeadsAt := by
  have headed : ∀ {kind stage} {parts : Parse (List Node)}, (header kind stage parts).Fronts Content.LeadsAt :=
    fun {_ _ parts} => .of_finds <| .behind parts fun _ => .behind lineBody fun _ => .pure fun _ => trivial
  refine .behind settles_next fun symbol => ?_
  split
  case h_8 => exact .of_finds <| .behind _ fun _ => .behind _ fun _ => .behind _ fun _ => .pure fun _ => trivial
  case h_9 =>
    refine .behind settles_afterNext fun second => ?_
    split
    case h_4 => exact fronts_simpleContent
    all_goals exact headed
  case h_10 =>
    refine .orElse (fun _ => rfl) (.of_finds ?_) fronts_simpleContent
    exact .behind _ fun _ => .behind _ fun _ => .behind _ fun _ => .behind _ fun _ => .pure fun _ => trivial
  case h_11 => exact fronts_simpleContent
  all_goals exact headed

/-- Statements without a body start where their line does. -/
theorem Line.Begins.read_leadsAt {line : Line} (begins : line.Begins) {content : Content}
    (read : line.read lineContent = some content) : content.LeadsAt line.start := by
  obtain ⟨⟨parsed, moved⟩, run, rfl⟩ := Option.map_eq_some_iff.mp read
  obtain ⟨token, rest, tokens, written⟩ := begins.first
  have starts := fronts_lineContent _ _ _ run
  cases parsed with
  | simple found =>
    obtain ⟨first, later, rfl, start, named, spoken⟩ := starts
    refine ⟨first.relocate line.place, Node.relocateAll line.place later, rfl, ?_, ?_, ?_⟩
    rotate_left
    · rwa [Node.isNamed, kind_relocate]
    · rwa [Node.isComment, kind_relocate]
    have plain : (Line.numbered 0 token.symbol).isWritten = true := written
    have next : Cursor.front { tokens := line.numberedTokens, limit := line.numberedTokens.length } = {} := by
      rw [Cursor.front, Line.numberedTokens_eq, Line.writtenTokens, tokens, List.map_cons, List.mapIdx_cons,
        List.cons_append, List.find?_cons_of_pos plain]
      rfl
    rw [start_relocate, start, next]
    simp [Line.place, Line.start, tokens]
  | _ => trivial

/-- What stands on a line with its tokens sits on the tokens that these stand for. -/
theorem Line.Begins.read_sits {line : Line} (begins : line.Begins) {grammar : Parse Content}
    (keeps : ∀ numbered, Parse.Keeps numbered grammar (Content.Sits numbered)) {content : Content}
    (read : line.read grammar = some content) : content.Sits line.tokens := by
  obtain ⟨⟨parsed, moved⟩, run, rfl⟩ := Option.map_eq_some_iff.mp read
  have sits := (Parse.keeps_iff.mp (keeps line.writtenTokens) _ begins.within _ _ run).2
  have moves : ∀ {statement : Node}, statement.SitsOn line.writtenTokens →
      (statement.relocate line.place).SitsOn line.tokens := by
    rintro statement ⟨token, member, written, start⟩
    obtain ⟨other, above, symbol, starts, _⟩ := Line.exists_of_mem_writtenTokens member
    refine ⟨other, above, by rw [Token.isWritten, symbol]; exact written, ?_⟩
    rw [start_relocate, ← start, starts]
  cases sits with
  | simple sits =>
    refine .simple fun statement member => ?_
    obtain ⟨old, among, rfl⟩ := exists_of_mem_relocateAll member
    exact moves (sits old among)
  | decorator applied => exact .decorator _
  | header body =>
    refine .header fun block held statement member => ?_
    obtain ⟨old, above, rfl⟩ := Option.map_eq_some_iff.mp held
    rw [children_relocate] at member
    obtain ⟨inner, among, rfl⟩ := List.mem_map.mp member
    exact moves (body old above inner among)

end SourceOutline.Python
