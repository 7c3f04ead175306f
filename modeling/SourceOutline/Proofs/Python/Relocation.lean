import Mathlib.Data.List.Forall2
import SourceOutline.Proofs.Python.Statements

/-! Lines with the same symbols and margins hold the same statements, at places that correspond. -/

namespace SourceOutline.Python

/-- Items of related lists are related one by one. -/
theorem getElem?_rel {α : Type} {related : α → α → Prop} {list list' : List α}
    (alike : List.Forall₂ related list list') (index : Nat) :
    Option.Rel related list[index]? list'[index]? := by
  induction alike generalizing index with
  | nil => exact .none
  | cons first rest ih =>
    cases index with
    | zero => exact .some first
    | succ index => exact ih index

/-- The last items of related lists are related. -/
theorem getLast?_rel {α : Type} {related : α → α → Prop} {list list' : List α}
    (alike : List.Forall₂ related list list') : Option.Rel related list.getLast? list'.getLast? := by
  rw [List.getLast?_eq_getElem?, List.getLast?_eq_getElem?, alike.length_eq]
  exact getElem?_rel alike _

/-- What is related to some value is a value. -/
theorem exists_of_rel_some {α : Type} {related : α → α → Prop} {value : α} {other : Option α}
    (rel : Option.Rel related (some value) other) : ∃ value', other = some value' ∧ related value value' := by
  cases rel with
  | some both => exact ⟨_, rfl, both⟩

/-- What is related to no value is none. -/
theorem eq_none_of_rel_none {α : Type} {related : α → α → Prop} {other : Option α}
    (rel : Option.Rel related none other) : other = none := by
  cases rel with
  | none => rfl

/-- Nodes that differ in their places at most, which correspond. -/
inductive Node.Alike (same : Mark → Mark → Prop) : Node → Node → Prop where
  /-- The nodes and their children correspond. -/
  | mk {kind : Kind} {role : Role} {start stop start' stop' : Mark} {children children' : List Node}
    (starts : same start start') (stops : same stop stop')
    (parts : List.Forall₂ (Node.Alike same) children children') :
    Node.Alike same (.mk kind role start stop children) (.mk kind role start' stop' children')

section

variable (same : Mark → Mark → Prop)

/-- Tokens of one symbol whose places correspond. -/
structure Token.Alike (token token' : Token) : Prop where
  /-- The symbol is the same. -/
  symbol : token'.symbol = token.symbol
  /-- They start at corresponding places. -/
  starts : same token.start token'.start
  /-- They end at corresponding places. -/
  stops : same token.stop token'.stop

/-- Notes whose tokens correspond, and which are indented alike when they are comments. -/
structure Note.Alike (note note' : Note) : Prop where
  /-- The tokens correspond. -/
  token : Token.Alike same note.token note'.token
  /-- Comments are indented alike. -/
  indent : note.token.symbol = .comment → note'.indent = note.indent

/-- Lines whose tokens correspond; there are some. -/
structure Line.ReadAlike (line line' : Line) : Prop where
  /-- The tokens correspond. -/
  tokens : List.Forall₂ (Token.Alike same) line.tokens line'.tokens
  /-- There is a token. -/
  some_token : line.tokens ≠ []

/-- Lines of one margin whose tokens and notes correspond. -/
structure Line.Alike (line line' : Line) : Prop extends Line.ReadAlike same line line' where
  /-- The notes correspond. -/
  notes : List.Forall₂ (Note.Alike same) line.notes line'.notes
  /-- The margin is the same. -/
  margin : line'.margin = line.margin

/-- Headers whose parts correspond. -/
structure Head.Alike (head head' : Head) : Prop where
  /-- The kind is the same. -/
  kind : head'.kind = head.kind
  /-- The clauses that may follow are the same. -/
  stage : head'.stage = head.stage
  /-- The lines of both bodies are cases or not. -/
  holdsCases : head'.holdsCases = head.holdsCases
  /-- The parts before the body correspond. -/
  parts : List.Forall₂ (Node.Alike same) head.parts head'.parts
  /-- The bodies on the line correspond. -/
  body : Option.Rel (Node.Alike same) head.body head'.body

/-- Contents of lines whose nodes correspond. -/
inductive Content.Alike : Content → Content → Prop where
  /-- Statements without a body correspond one by one. -/
  | simple {found found' : List Node} (parts : List.Forall₂ (Node.Alike same) found found') :
    Content.Alike (.simple found) (.simple found')
  /-- The parts of decorators correspond. -/
  | decorator {applied applied' : List Node} (parts : List.Forall₂ (Node.Alike same) applied applied') :
    Content.Alike (.decorator applied) (.decorator applied')
  /-- Headers correspond. -/
  | header {head head' : Head} (alike : Head.Alike same head head') :
    Content.Alike (.header head) (.header head')

variable {same}

/-- Corresponding nodes start at corresponding places. -/
theorem Node.Alike.start {node node' : Node} (alike : Node.Alike same node node') :
    same node.start node'.start := by
  cases alike with
  | mk starts stops parts => exact starts

/-- Corresponding nodes end at corresponding places. -/
theorem Node.Alike.stop {node node' : Node} (alike : Node.Alike same node node') :
    same node.stop node'.stop := by
  cases alike with
  | mk starts stops parts => exact stops

end

mutual

/-- A node at places that correspond is a corresponding node. -/
theorem Node.alike_relocate {same : Mark → Mark → Prop} {move move' : Mark → Mark}
    (moves : ∀ mark, same (move mark) (move' mark)) (node : Node) :
    Node.Alike same (node.relocate move) (node.relocate move') := by
  cases node with
  | mk kind role start stop children =>
    exact .mk (moves start) (moves stop) (Node.alike_relocateAll moves children)

/-- Nodes at places that correspond are corresponding nodes. -/
theorem Node.alike_relocateAll {same : Mark → Mark → Prop} {move move' : Mark → Mark}
    (moves : ∀ mark, same (move mark) (move' mark)) (nodes : List Node) :
    List.Forall₂ (Node.Alike same) (Node.relocateAll move nodes) (Node.relocateAll move' nodes) := by
  cases nodes with
  | nil => exact .nil
  | cons node rest => exact .cons (Node.alike_relocate moves node) (Node.alike_relocateAll moves rest)

end

section

variable {same : Mark → Mark → Prop} {line line' : Line}

/-- Corresponding tokens have the same symbols. -/
theorem symbols_alike {tokens tokens' : List Token}
    (alike : List.Forall₂ (Token.Alike same) tokens tokens') :
    tokens'.map Token.symbol = tokens.map Token.symbol := by
  induction alike with
  | nil => rfl
  | cons first rest ih => rw [List.map_cons, List.map_cons, first.symbol, ih]

/-- Corresponding lines start with the same symbol. -/
theorem Line.ReadAlike.firstSymbol (alike : Line.ReadAlike same line line') :
    line'.firstSymbol = line.firstSymbol := by
  have first := congrArg List.head? (symbols_alike alike.tokens)
  rw [List.head?_map, List.head?_map] at first
  rw [Line.firstSymbol, Line.firstSymbol, first]

/-- Corresponding lines start at corresponding places. -/
theorem Line.ReadAlike.start (alike : Line.ReadAlike same line line') :
    same line.start line'.start := by
  have first := getElem?_rel alike.tokens 0
  obtain ⟨token, more, tokens⟩ := List.exists_cons_of_ne_nil alike.some_token
  simp only [Line.start, List.head?_eq_getElem?]
  generalize line'.tokens[0]? = token' at first ⊢
  rw [tokens, List.getElem?_cons_zero] at first ⊢
  cases first with
  | some token => exact token.starts

/-- Corresponding lines end at corresponding places. -/
theorem Line.ReadAlike.stop (alike : Line.ReadAlike same line line') :
    same line.stop line'.stop := by
  have last := getLast?_rel alike.tokens
  simp only [Line.stop]
  generalize line'.tokens.getLast? = token' at last ⊢
  rw [List.getLast?_eq_getLast_of_ne_nil alike.some_token] at last ⊢
  cases last with
  | some token => exact token.stops

/-- Numbers stand for corresponding places on corresponding lines. -/
theorem Line.ReadAlike.place (alike : Line.ReadAlike same line line') (number : Mark) :
    same (line.place number) (line'.place number) := by
  have found := getElem?_rel alike.tokens (number.offset / 2)
  simp only [Line.place, List.getElem?_toArray]
  revert found
  generalize line.tokens[number.offset / 2]? = token
  generalize line'.tokens[number.offset / 2]? = token'
  intro found
  cases found with
  | none => exact alike.stop
  | some token =>
    simp only
    split
    · exact token.starts
    · exact token.stops

/-- What stands on a line stands on a corresponding line. -/
theorem Line.ReadAlike.read (alike : Line.ReadAlike same line line') {grammar : Parse Content}
    {content : Content} (found : line.read grammar = some content) :
    ∃ content', line'.read grammar = some content' ∧ Content.Alike same content content' := by
  have numbered : line'.numberedTokens = line.numberedTokens := by
    rw [Line.numberedTokens, Line.numberedTokens, symbols_alike alike.tokens]
  simp only [Line.read, numbered] at found ⊢
  obtain ⟨parsed, run, rfl⟩ := Option.map_eq_some_iff.mp found
  refine ⟨parsed.1.relocate line'.place, by rw [run]; rfl, ?_⟩
  have moves := alike.place
  cases parsed.1 with
  | simple statements => exact .simple (Node.alike_relocateAll moves statements)
  | decorator applied => exact .decorator (Node.alike_relocateAll moves applied)
  | header head =>
    have parts := Node.alike_relocateAll moves head.parts
    refine .header ⟨rfl, rfl, rfl, parts, ?_⟩
    cases body : head.body with
    | none => simp
    | some block => simpa [body] using Option.Rel.some (Node.alike_relocate moves block)

end

/-- Notes that correspond as far as they are indented further than a level. -/
def TailAlike (same : Mark → Mark → Prop) (level : Nat) (tail tail' : List Note) : Prop :=
  ∀ deeper, level < deeper →
    List.Forall₂ (Note.Alike same) (tail.takeWhile (Note.reaches deeper))
      (tail'.takeWhile (Note.reaches deeper))

section

variable {same : Mark → Mark → Prop}

/-- Corresponding notes correspond at every level. -/
theorem takeWhile_alike {notes notes' : List Note}
    (alike : List.Forall₂ (Note.Alike same) notes notes') (level : Nat) :
    List.Forall₂ (Note.Alike same) (notes.takeWhile (Note.reaches level))
      (notes'.takeWhile (Note.reaches level)) := by
  induction alike with
  | nil => exact .nil
  | @cons note note' rest rest' first later ih =>
    have reaches : Note.reaches level note' = Note.reaches level note := by
      rw [Note.reaches, Note.reaches, first.token.symbol]
      cases comment : note.token.symbol == .comment with
      | false => rfl
      | true => rw [first.indent (beq_iff_eq.mp comment)]
    rw [List.takeWhile_cons, List.takeWhile_cons, reaches]
    split
    · exact .cons first ih
    · exact .nil

/-- What corresponds at a level corresponds at those that are indented further. -/
theorem TailAlike.mono {level deeper : Nat} {tail tail' : List Note}
    (tails : TailAlike same level tail tail') (further : level ≤ deeper) :
    TailAlike same deeper tail tail' :=
  fun _ above => tails _ (Nat.lt_of_le_of_lt further above)

/-- The notes behind corresponding lines correspond. -/
theorem notesBehind_alike {level : Nat} {tail tail' : List Note} {lines lines' : List Line}
    (tails : TailAlike same level tail tail') (alike : List.Forall₂ (Line.Alike same) lines lines') :
    TailAlike same level (notesBehind tail lines) (notesBehind tail' lines') := by
  cases alike with
  | nil => exact tails
  | cons first rest => exact fun deeper _ => takeWhile_alike first.notes deeper

/-- Joins above corresponding lines correspond. -/
theorem joins_alike {notes notes' : List Note}
    (alike : List.Forall₂ (Note.Alike same) notes notes') :
    List.Forall₂ (Node.Alike same) (Line.joins notes) (Line.joins notes') := by
  induction alike with
  | nil => exact .nil
  | @cons note note' rest rest' first later ih =>
    have symbol := first.token.symbol
    simp only [Line.joins, List.map_cons, List.filter_cons, symbol] at ih ⊢
    split
    · refine .cons ?_ ih
      simp only [Token.triviaNode, symbol]
      exact .mk first.token.starts first.token.stops .nil
    · exact ih

/-- The lines of corresponding bodies correspond. -/
theorem bodyLines_alike {lines lines' : List Line} (level : Nat)
    (alike : List.Forall₂ (Line.Alike same) lines lines') :
    List.Forall₂ (Line.Alike same) (bodyLines level lines) (bodyLines level lines') := by
  cases alike with
  | nil => exact .nil
  | @cons first first' rest rest' here later =>
    simp only [bodyLines, here.margin]
    split
    · exact .nil
    · refine .cons here ?_
      induction later with
      | nil => exact .nil
      | @cons line line' more more' next further ih =>
        rw [List.takeWhile_cons, List.takeWhile_cons, next.margin]
        split
        · exact .cons next ih
        · exact .nil

/-- The first line of a body is indented further than the level around it. -/
theorem lt_margin_of_bodyLines {level : Nat} {lines later : List Line} {first : Line}
    (body : bodyLines level lines = first :: later) : level < first.margin := by
  cases lines with
  | nil => cases body
  | cons line rest =>
    simp only [bodyLines] at body
    split at body
    · cases body
    · rename_i deeper
      cases body
      exact Nat.lt_of_not_le deeper

/-- The last ones of corresponding lines correspond. -/
theorem getLast_alike {lines lines' : List Line} (alike : List.Forall₂ (Line.Alike same) lines lines')
    (some_line : lines ≠ []) (some_line' : lines' ≠ []) :
    Line.ReadAlike same (lines.getLast some_line) (lines'.getLast some_line') := by
  have last := getLast?_rel alike
  rw [List.getLast?_eq_getLast_of_ne_nil some_line, List.getLast?_eq_getLast_of_ne_nil some_line'] at last
  cases last with
  | some both => exact both.toReadAlike

/-- Corresponding blocks end at corresponding places. -/
theorem blockStop_alike {level : Nat} {last last' : Line} {notes notes' : List Note}
    (lines : Line.ReadAlike same last last')
    (reached : List.Forall₂ (Note.Alike same) (notes.takeWhile (Note.reaches level))
      (notes'.takeWhile (Note.reaches level))) :
    same (blockStop level last notes) (blockStop level last' notes') := by
  unfold blockStop
  generalize notes.takeWhile (Note.reaches level) = kept at reached ⊢
  generalize notes'.takeWhile (Note.reaches level) = kept' at reached ⊢
  have ends := getLast?_rel reached
  generalize kept.getLast? = note at ends ⊢
  generalize kept'.getLast? = note' at ends ⊢
  cases ends with
  | none => exact lines.stop
  | some both => exact both.token.stops

end

/-- The last ones of corresponding nodes end at corresponding places, and so do lines without nodes. -/
theorem lastStop_alike {same : Mark → Mark → Prop} {nodes nodes' : List Node} {line line' : Line}
    (alike : List.Forall₂ (Node.Alike same) nodes nodes') (lines : Line.ReadAlike same line line') :
    same ((nodes.getLast?.map Node.stop).getD line.stop)
      ((nodes'.getLast?.map Node.stop).getD line'.stop) := by
  have ends := getLast?_rel alike
  generalize nodes.getLast? = node at ends ⊢
  generalize nodes'.getLast? = node' at ends ⊢
  cases ends with
  | none => exact lines.stop
  | some both => exact both.stop

/-- The first ones of corresponding nodes start at corresponding places, and so do empty bodies. -/
theorem firstStart_alike {same : Mark → Mark → Prop} {nodes nodes' : List Node} {line line' : Line}
    (alike : List.Forall₂ (Node.Alike same) nodes nodes') (lines : Line.ReadAlike same line line') :
    same ((nodes.head?.map Node.start).getD line.stop)
      ((nodes'.head?.map Node.start).getD line'.stop) := by
  cases alike with
  | nil => exact lines.stop
  | cons first rest => exact first.start

mutual

/-- Corresponding lines hold corresponding statements. -/
theorem statements_alike {same : Mark → Mark → Prop} {grammar : Parse Content} {level : Nat}
    {tail tail' : List Note} {lines lines' : List Line} {nodes : List Node}
    (tails : TailAlike same level tail tail') (alike : List.Forall₂ (Line.Alike same) lines lines')
    (found : statements grammar level tail lines = some nodes) :
    ∃ nodes', statements grammar level tail' lines' = some nodes' ∧
      List.Forall₂ (Node.Alike same) nodes nodes' := by
  cases alike with
  | nil =>
    rw [statements_nil] at found
    cases found
    exact ⟨[], statements_nil, .nil⟩
  | cons first later =>
    obtain ⟨here, taken, behind, run, further, rfl⟩ := statements_cons_eq_some.mp found
    obtain ⟨here', run', heres⟩ := statement_alike tails first.toReadAlike later run
    obtain ⟨behind', further', behinds⟩ :=
      statements_alike tails (List.forall₂_drop taken later) further
    refine ⟨_, statements_cons_eq_some.mpr ⟨here', taken, behind', run', further', rfl⟩, ?_⟩
    exact List.rel_append (List.rel_append (joins_alike first.notes) heres) behinds
termination_by 4 * lines.length

/-- The statements that start on corresponding lines correspond. -/
theorem statement_alike {same : Mark → Mark → Prop} {grammar : Parse Content} {level : Nat}
    {tail tail' : List Note} {line line' : Line} {rest rest' : List Line} {nodes : List Node}
    {taken : Nat} (tails : TailAlike same level tail tail') (here : Line.ReadAlike same line line')
    (alike : List.Forall₂ (Line.Alike same) rest rest')
    (found : statement grammar level tail line rest = some (nodes, taken)) :
    ∃ nodes', statement grammar level tail' line' rest' = some (nodes', taken) ∧
      List.Forall₂ (Node.Alike same) nodes nodes' := by
  rcases statement_eq_some.mp found with ⟨read, rfl⟩ | ⟨applied, below, read, run, rfl⟩ |
    ⟨head, node, read, run, rfl⟩
  · obtain ⟨content', read', contents⟩ := here.read read
    cases contents with
    | simple parts => exact ⟨_, statement_eq_some.mpr (.inl ⟨read', rfl⟩), parts⟩
  · obtain ⟨content', read', contents⟩ := here.read read
    cases contents with
    | decorator parts =>
      obtain ⟨below', run', belows⟩ := decorated_alike tails alike run
      refine ⟨_, statement_eq_some.mpr (.inr (.inl ⟨_, below', read', run', rfl⟩)), ?_⟩
      exact .cons (.mk here.start (lastStop_alike belows here) (List.rel_append parts belows)) .nil
  · obtain ⟨content', read', contents⟩ := here.read read
    cases contents with
    | header heads =>
      obtain ⟨node', run', nodes⟩ := compound_alike tails here heads alike run
      exact ⟨_, statement_eq_some.mpr (.inr (.inr ⟨_, node', read', run', rfl⟩)), .cons nodes .nil⟩
termination_by 4 * rest.length + 3

/-- What decorators are applied to on corresponding lines corresponds. -/
theorem decorated_alike {same : Mark → Mark → Prop} {level : Nat} {tail tail' : List Note}
    {lines lines' : List Line} {nodes : List Node} {taken : Nat}
    (tails : TailAlike same level tail tail') (alike : List.Forall₂ (Line.Alike same) lines lines')
    (found : decorated level tail lines = some (nodes, taken)) :
    ∃ nodes', decorated level tail' lines' = some (nodes', taken) ∧
      List.Forall₂ (Node.Alike same) nodes nodes' := by
  cases alike with
  | nil =>
    rw [decorated_nil] at found
    cases found
  | cons first later =>
    rcases decorated_cons_eq_some.mp found with ⟨applied, below, count, read, run, rfl, rfl⟩ |
      ⟨head, node, count, read, defines, run, rfl, rfl⟩
    · obtain ⟨content', read', contents⟩ := first.toReadAlike.read read
      cases contents with
      | decorator parts =>
        obtain ⟨below', run', belows⟩ := decorated_alike tails later run
        refine ⟨_, decorated_cons_eq_some.mpr (.inl ⟨_, below', count, read', run', rfl, rfl⟩), ?_⟩
        exact List.rel_append parts belows
    · obtain ⟨content', read', contents⟩ := first.toReadAlike.read read
      cases contents with
      | header heads =>
        obtain ⟨node', run', nodes⟩ := compound_alike tails first.toReadAlike heads later run
        rw [← heads.kind] at defines
        refine ⟨_, decorated_cons_eq_some.mpr
          (.inr ⟨_, node', count, read', defines, run', rfl, rfl⟩), .cons nodes .nil⟩
termination_by 4 * lines.length + 2

/-- The statements of corresponding headers correspond. -/
theorem compound_alike {same : Mark → Mark → Prop} {level : Nat} {tail tail' : List Note}
    {line line' : Line} {head head' : Head} {role : Role} {rest rest' : List Line} {node : Node}
    {taken : Nat} (tails : TailAlike same level tail tail') (here : Line.ReadAlike same line line')
    (heads : Head.Alike same head head') (alike : List.Forall₂ (Line.Alike same) rest rest')
    (found : compound level tail line head role rest = some (node, taken)) :
    ∃ node', compound level tail' line' head' role rest' = some (node', taken) ∧
      Node.Alike same node node' := by
  obtain ⟨body, count, later, more, run, follow, rfl, rfl⟩ := compound_eq_some.mp found
  obtain ⟨body', run', bodies⟩ := suite_alike tails here heads alike run
  obtain ⟨later', follow', laters⟩ := clauses_alike tails (List.forall₂_drop count alike) follow
  rw [← heads.stage] at follow'
  refine ⟨_, compound_eq_some.mpr ⟨body', count, later', more, run', follow', rfl, rfl⟩, ?_⟩
  have parts := List.Forall₂.cons bodies laters
  rw [heads.kind]
  exact .mk here.start (lastStop_alike parts here) (List.rel_append heads.parts parts)
termination_by 4 * rest.length + 2

/-- The bodies of corresponding headers correspond. -/
theorem suite_alike {same : Mark → Mark → Prop} {level : Nat} {tail tail' : List Note}
    {line line' : Line} {head head' : Head} {rest rest' : List Line} {body : Node} {taken : Nat}
    (tails : TailAlike same level tail tail') (here : Line.ReadAlike same line line')
    (heads : Head.Alike same head head') (alike : List.Forall₂ (Line.Alike same) rest rest')
    (found : suite level tail line head rest = some (body, taken)) :
    ∃ body', suite level tail' line' head' rest' = some (body', taken) ∧
      Node.Alike same body body' := by
  have bodies := heads.body
  have lines := bodyLines_alike level alike
  rcases suite_eq_some.mp found with ⟨block, given, rfl, rfl⟩ | ⟨given, empty, rfl, rfl⟩ |
    ⟨first, later, children, given, body, run, rfl, rfl⟩
  · rw [given] at bodies
    obtain ⟨block', given', blocks⟩ := exists_of_rel_some bodies
    refine ⟨_, suite_eq_some.mpr (.inl ⟨block', given', rfl, rfl⟩), ?_⟩
    cases blocks with
    | mk starts stops parts => exact .mk starts here.stop parts
  · rw [given] at bodies
    rw [empty] at lines
    have given' := eq_none_of_rel_none bodies
    have empty' := List.forall₂_nil_left_iff.mp lines
    refine ⟨_, suite_eq_some.mpr (.inr (.inl ⟨given', empty', rfl, rfl⟩)), ?_⟩
    exact .mk here.stop here.stop .nil
  · rw [given] at bodies
    rw [body] at lines
    have given' := eq_none_of_rel_none bodies
    obtain ⟨first', later', firsts, laters, body'⟩ := List.forall₂_cons_left_iff.mp lines
    have fewer : later.length + 1 ≤ rest.length := by
      simpa [body] using length_bodyLines_le level rest
    -- What lies behind the body is judged by the margin of the body, which is greater than the level.
    have deeper := lt_margin_of_bodyLines body
    have behind := notesBehind_alike tails (List.forall₂_drop (later.length + 1) alike)
    have bare : Line.Alike same { first with notes := [] } { first' with notes := [] } :=
      ⟨⟨firsts.tokens, firsts.some_token⟩, .nil, firsts.margin⟩
    obtain ⟨children', run', childrens⟩ :=
      statements_alike (behind.mono (Nat.le_of_lt deeper)) (.cons bare laters) run
    rw [← heads.holdsCases, ← firsts.margin] at run'
    have count : later.length + 1 = later'.length + 1 := by rw [laters.length_eq]
    refine ⟨_, suite_eq_some.mpr
      (.inr (.inr ⟨first', later', children', given', body', run', count, rfl⟩)), ?_⟩
    have last := getLast_alike (.cons firsts laters) (List.cons_ne_nil first later)
      (List.cons_ne_nil first' later')
    have ends := blockStop_alike last (behind first.margin deeper)
    rw [firsts.margin]
    exact .mk (firstStart_alike childrens here) ends childrens
termination_by 4 * rest.length + 1

/-- The clauses on corresponding lines correspond. -/
theorem clauses_alike {same : Mark → Mark → Prop} {stage : Stage} {level : Nat}
    {tail tail' : List Note} {lines lines' : List Line} {nodes : List Node} {taken : Nat}
    (tails : TailAlike same level tail tail') (alike : List.Forall₂ (Line.Alike same) lines lines')
    (found : clauses stage level tail lines = some (nodes, taken)) :
    ∃ nodes', clauses stage level tail' lines' = some (nodes', taken) ∧
      List.Forall₂ (Node.Alike same) nodes nodes' := by
  cases alike with
  | nil =>
    obtain ⟨ends, rfl, rfl⟩ := clauses_nil_eq_some.mp found
    exact ⟨[], clauses_nil_eq_some.mpr ⟨ends, rfl, rfl⟩, .nil⟩
  | cons first behind =>
    have symbol := first.toReadAlike.firstSymbol
    rcases clauses_cons_eq_some.mp found with ⟨follow, ends, rfl, rfl⟩ |
      ⟨next, head, body, count, later, more, follow, read, run, further, rfl, rfl⟩
    · rw [← symbol] at follow
      exact ⟨[], clauses_cons_eq_some.mpr (.inl ⟨follow, ends, rfl, rfl⟩), .nil⟩
    · obtain ⟨content', read', contents⟩ := first.toReadAlike.read read
      rw [← symbol] at follow read'
      cases contents with
      | header heads =>
        obtain ⟨body', run', bodies⟩ := suite_alike tails first.toReadAlike heads behind run
        obtain ⟨later', further', laters⟩ :=
          clauses_alike tails (List.forall₂_drop count behind) further
        refine ⟨_, clauses_cons_eq_some.mpr
          (.inr ⟨next, _, body', count, later', more, follow, read', run', further', rfl, rfl⟩), ?_⟩
        have parts := List.rel_append heads.parts (.cons bodies .nil)
        exact .cons (.mk first.toReadAlike.start bodies.stop parts) laters
termination_by 4 * lines.length + 1

end

end SourceOutline.Python
