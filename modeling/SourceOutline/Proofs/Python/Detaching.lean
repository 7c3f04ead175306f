import Mathlib.Data.List.TakeWhile
import SourceOutline.Proofs.Python.Heads
import SourceOutline.Proofs.Python.Relocation

/-! A definition is found again on its own lines when nothing else follows them. -/

namespace SourceOutline.Python

/-- The place where some lines end of which the last one is given, with the notes behind them. -/
def endOf (last : Line) (notes : List Note) : Mark :=
  -- Notes extend the lines.
  (notes.getLast?.map fun note => note.token.stop).getD last.stop

/-- What is found on a line and some of those below it up to a place depends on these lines and on the
first comments behind them alone: it is found on corresponding lines and notes as well. -/
def Detached (again : (Mark → Mark → Prop) → Line → List Line → List Note → Prop) (tail : List Note)
    (line : Line) (rest : List Line) (taken : Nat) (stop : Mark) : Prop :=
  taken ≤ rest.length ∧ ∃ count,
    let notes := (notesBehind tail (rest.drop taken)).take count
    (∀ note ∈ notes, note.token.symbol = .comment) ∧
    stop = endOf ((rest.take taken).getLast?.getD line) notes ∧
    ∀ same line' rest' notes', Line.ReadAlike same line line' →
      List.Forall₂ (Line.Alike same) (rest.take taken) rest' →
      List.Forall₂ (Note.Alike same) notes notes' → again same line' rest' notes'

/-- What follows from finding something again is detached as well. -/
theorem Detached.imp {again again' : (Mark → Mark → Prop) → Line → List Line → List Note → Prop}
    {tail : List Note} {line : Line} {rest : List Line} {taken : Nat} {stop : Mark}
    (detached : Detached again tail line rest taken stop)
    (follows : ∀ same line' rest' notes', Line.ReadAlike same line line' →
      again same line' rest' notes' → again' same line' rest' notes') :
    Detached again' tail line rest taken stop := by
  obtain ⟨fewer, count, comments, ends, run⟩ := detached
  exact ⟨fewer, count, comments, ends, fun same line' rest' notes' here alike notes =>
    follows same line' rest' notes' here (run same line' rest' notes' here alike notes)⟩

section

variable {level taken : Nat} {tail : List Note} {line : Line} {head : Head} {rest : List Line}

/-- The lines of a body are the first ones below its header. -/
theorem bodyLines_isPrefix (level : Nat) (lines : List Line) : bodyLines level lines <+: lines := by
  cases lines with
  | nil => exact List.nil_prefix
  | cons first rest =>
    simp only [bodyLines]
    split
    · exact List.nil_prefix
    · exact (List.prefix_cons_inj first).mpr (List.takeWhile_prefix _)

/-- The lines of a body are all lines below the header when no others follow. -/
theorem bodyLines_idem (level : Nat) (lines : List Line) :
    bodyLines level (bodyLines level lines) = bodyLines level lines := by
  cases lines with
  | nil => rfl
  | cons first rest =>
    by_cases shallow : first.margin ≤ level
    · simp [bodyLines, shallow]
    · simp [bodyLines, shallow, List.takeWhile_idem]

/-- Notes that reach a level are the first ones, and all of them are comments. -/
theorem exists_take_reaches (level : Nat) (notes : List Note) :
    ∃ count, notes.takeWhile (Note.reaches level) = notes.take count ∧
      ∀ note ∈ notes.take count, note.token.symbol = .comment := by
  have front := List.prefix_iff_eq_take.mp (List.takeWhile_prefix (Note.reaches level) (l := notes))
  refine ⟨_, front, fun note member => ?_⟩
  rw [← front] at member
  have reaches := List.all_eq_true.mp List.all_takeWhile note member
  simp only [Note.reaches, Bool.and_eq_true, beq_iff_eq] at reaches
  exact reaches.1

/-- Notes that reach a further level are among those that reach a level. -/
theorem takeWhile_reaches {level deeper : Nat} (further : level ≤ deeper) (notes : List Note) :
    (notes.takeWhile (Note.reaches level)).takeWhile (Note.reaches deeper) =
      notes.takeWhile (Note.reaches deeper) := by
  induction notes with
  | nil => rfl
  | cons note rest ih =>
    cases reaches : note.reaches deeper with
    | false =>
      rw [List.takeWhile_cons]
      split <;> simp [reaches]
    | true =>
      have shallow : note.reaches level = true := by
        simp only [Note.reaches, Bool.and_eq_true, decide_eq_true_eq] at reaches ⊢
        exact ⟨reaches.1, Nat.le_trans further reaches.2⟩
      simp [shallow, reaches, ih]

/-- A body below its header is found again with its own lines and the comments that reach it. -/
theorem block_detached {first : Line} {later : List Line} {children : List Node} {count : Nat}
    {same : Mark → Mark → Prop} {line' : Line} {head' : Head} {rest' : List Line}
    {behind notes' : List Note} (given : head.body = none)
    (lines : bodyLines level (first :: later) = first :: later)
    (run : statements (if head.holdsCases then caseContent else lineContent) first.margin behind
      ({ first with notes := [] } :: later) = some children)
    (reached : behind.takeWhile (Note.reaches first.margin) = behind.take count)
    (here : Line.ReadAlike same line line') (heads : Head.Alike same head head')
    (alike : List.Forall₂ (Line.Alike same) (first :: later) rest')
    (notes : List.Forall₂ (Note.Alike same) (behind.take count) notes') :
    ∃ body', suite level notes' line' head' rest' = some (body', later.length + 1) ∧
      Node.Alike same (.mk .block .body ((children.head?.map Node.start).getD line.stop)
        (blockStop first.margin ((first :: later).getLast (by simp)) behind) children) body' := by
  have bodies := heads.body
  rw [given] at bodies
  have given' := eq_none_of_rel_none bodies
  have body' := bodyLines_alike level alike
  rw [lines] at body'
  have whole := (bodyLines_isPrefix level rest').eq_of_length
    (body'.length_eq.symm.trans alike.length_eq)
  obtain ⟨first', later', firsts, laters, rfl⟩ := List.forall₂_cons_left_iff.mp alike
  have bare : Line.Alike same { first with notes := [] } { first' with notes := [] } :=
    ⟨⟨firsts.tokens, firsts.some_token⟩, .nil, firsts.margin⟩
  -- Everything inside the body is indented further, so the comments that were cut off do not matter.
  have kept : ∀ deeper, first.margin ≤ deeper →
      List.Forall₂ (Note.Alike same) (behind.takeWhile (Note.reaches deeper))
        (notes'.takeWhile (Note.reaches deeper)) := by
    intro deeper further
    have front := takeWhile_alike notes deeper
    rwa [← reached, takeWhile_reaches further] at front
  have tails : TailAlike same first.margin behind notes' := fun deeper above =>
    kept deeper (Nat.le_of_lt above)
  obtain ⟨children', run', childrens⟩ := statements_alike tails (.cons bare laters) run
  have last := getLast_alike (.cons firsts laters) (List.cons_ne_nil first later)
    (List.cons_ne_nil first' later')
  have ends := blockStop_alike last (kept first.margin (Nat.le_refl _))
  have count : later.length + 1 = later'.length + 1 := by rw [laters.length_eq]
  have past : (first' :: later').drop (later.length + 1) = [] := by
    simp [laters.length_eq]
  rw [← heads.holdsCases, ← firsts.margin] at run'
  refine ⟨_, suite_eq_some.mpr
    (.inr (.inr ⟨first', later', children', given', whole, ?_, count, rfl⟩)), ?_⟩
  · rw [past]
    exact run'
  · rw [past, firsts.margin]
    exact .mk (firstStart_alike childrens here) ends childrens

/-- A body is found again on its own lines. -/
theorem suite_detached {body : Node} (found : suite level tail line head rest = some (body, taken)) :
    Detached (fun same line' rest' notes' => ∀ head', Head.Alike same head head' →
      ∃ body', suite level notes' line' head' rest' = some (body', taken) ∧
        Node.Alike same body body') tail line rest taken body.stop := by
  have alone : ∀ {same line' rest' notes'}, suite level [] line head [] = some (body, 0) →
      Line.ReadAlike same line line' → List.Forall₂ (Line.Alike same) (rest.take 0) rest' →
      List.Forall₂ (Note.Alike same) ((notesBehind tail (rest.drop 0)).take 0) notes' →
      ∀ head', Head.Alike same head head' →
        ∃ body', suite level notes' line' head' rest' = some (body', 0) ∧ Node.Alike same body body' := by
    intro same line' rest' notes' again here alike notes head' heads
    rw [List.take_zero] at alike notes
    cases alike
    cases notes
    exact suite_alike (fun _ _ => .nil) here heads .nil again
  rcases suite_eq_some.mp found with ⟨block, given, rfl, rfl⟩ | ⟨given, empty, rfl, rfl⟩ |
    ⟨first, later, children, given, lines, run, rfl, rfl⟩
  · refine ⟨Nat.zero_le _, 0, by simp, ?_, fun _ _ _ _ => alone ?_⟩
    · cases block with
      | mk kind role start stop children => rfl
    · exact suite_eq_some.mpr (.inl ⟨block, given, rfl, rfl⟩)
  · refine ⟨Nat.zero_le _, 0, by simp, rfl, fun _ _ _ _ => alone ?_⟩
    exact suite_eq_some.mpr (.inr (.inl ⟨given, rfl, rfl, rfl⟩))
  · -- The comments that belong to the body are the first ones behind it.
    have own := List.prefix_iff_eq_take.mp (bodyLines_isPrefix level rest)
    have again := bodyLines_idem level rest
    have fewer := length_bodyLines_le level rest
    rw [lines] at own again fewer
    obtain ⟨count, reached, comments⟩ := exists_take_reaches first.margin
      (notesBehind tail (rest.drop (later.length + 1)))
    rw [List.length_cons] at own
    refine ⟨fewer, count, comments, ?_, ?_⟩
    · rw [← reached, ← own, List.getLast?_eq_getLast_of_ne_nil (List.cons_ne_nil first later)]
      rfl
    · intro same line' rest' notes' here alike notes head' heads
      rw [← own] at alike
      exact block_detached given again run reached here heads alike notes

/-- No clauses follow a closed statement. -/
theorem clauses_closed {lines : List Line} {nodes : List Node} :
    clauses .closed level tail lines = some (nodes, taken) ↔ nodes = [] ∧ taken = 0 := by
  cases lines with
  | nil =>
    rw [clauses_nil_eq_some]
    exact and_iff_right rfl
  | cons line rest =>
    rw [clauses_cons_eq_some]
    constructor
    · rintro (⟨_, _, rfl, rfl⟩ | ⟨next, _, _, _, _, _, follow, _⟩)
      · exact ⟨rfl, rfl⟩
      · cases follow
    · rintro ⟨rfl, rfl⟩
      exact .inl ⟨rfl, rfl, rfl, rfl⟩

/-- The statement of a header without further clauses is found again on its own lines. -/
theorem compound_detached {role : Role} {node : Node} (closed : head.stage = .closed)
    (found : compound level tail line head role rest = some (node, taken)) :
    Detached (fun same line' rest' notes' => ∀ head', Head.Alike same head head' →
      ∃ node', compound level notes' line' head' role rest' = some (node', taken) ∧
        Node.Alike same node node') tail line rest taken node.stop := by
  obtain ⟨body, count, later, more, run, follow, rfl, rfl⟩ := compound_eq_some.mp found
  rw [closed, clauses_closed] at follow
  obtain ⟨rfl, rfl⟩ := follow
  obtain ⟨fewer, kept, comments, ends, again⟩ := suite_detached run
  refine ⟨fewer, kept, comments, ends, fun same line' rest' notes' here alike notes head' heads => ?_⟩
  obtain ⟨body', run', bodies⟩ := again same line' rest' notes' here alike notes head' heads
  have follow' : clauses head'.stage level notes' (rest'.drop count) = some ([], 0) := by
    rw [heads.stage, closed]
    exact clauses_closed.mpr ⟨rfl, rfl⟩
  refine ⟨_, compound_eq_some.mpr ⟨body', count, [], 0, run', follow', rfl, rfl⟩, ?_⟩
  have parts := List.Forall₂.cons bodies .nil
  rw [heads.kind]
  exact .mk here.start (lastStop_alike parts here) (List.rel_append heads.parts parts)

/-- The header of a definition has no further clauses. -/
theorem closed_of_defines (read : line.read lineContent = some (.header head))
    (defines : head.kind.defines = true) : head.stage = .closed := by
  rcases Line.read_isSound read with other | ⟨closed, _⟩
  · rw [other] at defines
    cases defines
  · exact closed

/-- What is found below a decorator is found again with the line below it in front. -/
theorem Detached.below {again : (Mark → Mark → Prop) → Line → List Line → List Note → Prop}
    {first : Line} {stop : Mark} (detached : Detached again tail first rest taken stop) (line : Line) :
    Detached (fun same _ lines' notes' => ∃ first' rest', lines' = first' :: rest' ∧
      Line.ReadAlike same first first' ∧ again same first' rest' notes')
      tail line (first :: rest) (taken + 1) stop := by
  obtain ⟨fewer, count, comments, ends, run⟩ := detached
  refine ⟨Nat.succ_le_succ fewer, count, comments, ?_, ?_⟩
  · rw [ends, List.take_succ_cons, List.getLast?_cons]
    rfl
  · intro same line' lines' notes' _ alike notes
    rw [List.take_succ_cons] at alike
    obtain ⟨first', rest', firsts, rests, rfl⟩ := List.forall₂_cons_left_iff.mp alike
    have here := firsts.toReadAlike
    exact ⟨first', rest', rfl, here, run same first' rest' notes' here rests notes⟩

/-- What decorators are applied to is found again on its own lines. -/
theorem decorated_detached (line : Line) {lines : List Line} {nodes : List Node}
    (found : decorated level tail lines = some (nodes, taken)) :
    ∃ last, nodes.getLast? = some last ∧
      Detached (fun same _ lines' notes' =>
        ∃ nodes', decorated level notes' lines' = some (nodes', taken) ∧
          List.Forall₂ (Node.Alike same) nodes nodes') tail line lines taken last.stop := by
  induction lines generalizing line nodes taken with
  | nil =>
    rw [decorated_nil] at found
    cases found
  | cons first rest ih =>
    rcases decorated_cons_eq_some.mp found with ⟨applied, below, count, read, run, rfl, rfl⟩ |
      ⟨head, node, count, read, defines, run, rfl, rfl⟩
    · obtain ⟨last, isLast, detached⟩ := ih first run
      refine ⟨last, by rw [List.getLast?_append, isLast]; rfl, (detached.below line).imp ?_⟩
      rintro same _ _ notes' _ ⟨first', rest', rfl, here, below', run', belows⟩
      obtain ⟨content', read', contents⟩ := here.read read
      cases contents with
      | decorator parts =>
        refine ⟨_, decorated_cons_eq_some.mpr (.inl ⟨_, below', count, read', run', rfl, rfl⟩), ?_⟩
        exact List.rel_append parts belows
    · have closed : head.stage = .closed := closed_of_defines read (by
        rcases defines with kind | kind <;> rw [kind] <;> rfl)
      refine ⟨node, rfl, ((compound_detached closed run).below line).imp ?_⟩
      rintro same _ _ notes' _ ⟨first', rest', rfl, here, again⟩
      obtain ⟨content', read', contents⟩ := here.read read
      cases contents with
      | header heads =>
        obtain ⟨node', run', nodes⟩ := again _ heads
        rw [← heads.kind] at defines
        refine ⟨_, decorated_cons_eq_some.mpr
          (.inr ⟨_, node', count, read', defines, run', rfl, rfl⟩), .cons nodes .nil⟩

/-- A definition is found again on its own lines; it starts with its first line. -/
theorem statement_detached {nodes : List Node} {node : Node}
    (found : statement lineContent level tail line rest = some (nodes, taken)) (member : node ∈ nodes)
    (defines : node.kind.defines = true) :
    nodes = [node] ∧ node.start = line.start ∧
      Detached (fun same line' rest' notes' =>
        ∃ node', statement lineContent level notes' line' rest' = some ([node'], taken) ∧
          Node.Alike same node node') tail line rest taken node.stop := by
  rcases statement_eq_some.mp found with ⟨read, rfl⟩ | ⟨applied, below, read, run, rfl⟩ |
    ⟨head, found, read, run, rfl⟩
  · have plain := Line.read_isSound read node member
    rw [plain] at defines
    cases defines
  · cases List.mem_singleton.mp member
    obtain ⟨last, isLast, detached⟩ := decorated_detached line run
    refine ⟨rfl, rfl, ?_⟩
    have ends : (Node.mk .decoratedDefinition .part line.start
        ((below.getLast?.map Node.stop).getD line.stop) (applied ++ below)).stop = last.stop := by
      rw [isLast]
      rfl
    rw [ends]
    refine detached.imp fun same line' rest' notes' here again => ?_
    obtain ⟨below', run', belows⟩ := again
    obtain ⟨content', read', contents⟩ := here.read read
    cases contents with
    | decorator parts =>
      refine ⟨_, statement_eq_some.mpr (.inr (.inl ⟨_, below', read', run', rfl⟩)), ?_⟩
      exact .mk here.start (lastStop_alike belows here) (List.rel_append parts belows)
  · cases List.mem_singleton.mp member
    obtain ⟨body, count, later, more, _, _, _, isNode⟩ := compound_eq_some.mp run
    have kind : node.kind = head.kind := by
      rw [isNode]
      rfl
    rw [kind] at defines
    refine ⟨rfl, by rw [isNode]; rfl, (compound_detached (closed_of_defines read defines) run).imp ?_⟩
    intro same line' rest' notes' here again
    obtain ⟨content', read', contents⟩ := here.read read
    cases contents with
    | header heads =>
      obtain ⟨node', run', nodes⟩ := again _ heads
      exact ⟨node', statement_eq_some.mpr (.inr (.inr ⟨_, node', read', run', rfl⟩)), nodes⟩

end

end SourceOutline.Python
