import SourceOutline.Proofs.Python.Relocation

/-! Lines that are all less far indented hold the same statements. -/

namespace SourceOutline.Python

/-- A note that is less far indented. -/
def Note.shallower (less : Nat) (note : Note) : Note := { note with indent := note.indent - less }

/-- A line that is less far indented, as are the notes above it. -/
def Line.shallower (less : Nat) (line : Line) : Line :=
  { line with notes := line.notes.map (Note.shallower less), margin := line.margin - less }

/-- Lines and notes that are less far indented. -/
def Layout.shallower (less : Nat) (layout : Layout) : Layout :=
  ⟨layout.lines.map (Line.shallower less), layout.notes.map (Note.shallower less)⟩

/-- Notes in front are less far indented like all others. -/
theorem Layout.shallower_below (less : Nat) (layout : Layout) (notes : List Note) :
    (layout.below notes).shallower less = (layout.shallower less).below (notes.map (Note.shallower less)) := by
  obtain ⟨lines, behind⟩ := layout
  cases lines with
  | nil => simp [Layout.below, Layout.shallower]
  | cons line rest => simp [Layout.below, Layout.shallower, Line.below, Line.shallower]

section

variable {grammar : Parse Content} {less level taken : Nat} {tail : List Note} {line : Line} {head : Head}
  {rest : List Line}

/-- The lines of a body are the same ones. -/
theorem bodyLines_shallower (less level : Nat) (lines : List Line) :
    bodyLines level (lines.map (Line.shallower less)) =
      (bodyLines (level + less) lines).map (Line.shallower less) := by
  cases lines with
  | nil => rfl
  | cons first rest =>
    simp only [List.map_cons, bodyLines, Line.shallower]
    by_cases shallow : first.margin ≤ level + less
    · rw [if_pos (by omega), if_pos shallow]
      rfl
    · rw [if_neg (by omega), if_neg shallow, List.map_cons, List.takeWhile_map]
      have same : (fun line : Line => decide (first.margin - less ≤ line.margin)) ∘ Line.shallower less =
          fun line => decide (first.margin ≤ line.margin) := by
        funext line
        refine decide_eq_decide.mpr ?_
        show first.margin - less ≤ line.margin - less ↔ _
        omega
      rw [same]
      rfl

/-- The notes behind lines are less far indented like the lines. -/
theorem notesBehind_shallower (less : Nat) (tail : List Note) (lines : List Line) :
    notesBehind (tail.map (Note.shallower less)) (lines.map (Line.shallower less)) =
      (notesBehind tail lines).map (Note.shallower less) := by
  cases lines <;> rfl

/-- A block ends where it did. -/
theorem blockStop_shallower (positive : 0 < level) (last : Line) (behind : List Note) :
    blockStop level (last.shallower less) (behind.map (Note.shallower less)) =
      blockStop (level + less) last behind := by
  have reaches : Note.reaches level ∘ Note.shallower less = Note.reaches (level + less) := by
    funext note
    have deep : (level ≤ note.indent - less) = (level + less ≤ note.indent) := by
      rw [eq_iff_iff]
      omega
    simp [Note.reaches, Note.shallower, deep]
  rw [blockStop, blockStop, List.takeWhile_map, reaches, List.getLast?_map, Option.map_map]
  rfl

/-- Joins stay as they are. -/
theorem joins_shallower (notes : List Note) : Line.joins (notes.map (Note.shallower less)) = Line.joins notes := by
  rw [Line.joins, List.map_map]
  rfl

end

mutual

/-- The statements on lines are the same ones. -/
theorem statements_shallower {grammar : Parse Content} {less level : Nat} {tail : List Note} {lines : List Line}
    {nodes : List Node} (found : statements grammar (level + less) tail lines = some nodes) :
    statements grammar level (tail.map (Note.shallower less)) (lines.map (Line.shallower less)) = some nodes := by
  cases lines with
  | nil =>
    rw [statements_nil] at found
    rw [List.map_nil, statements_nil, found]
  | cons line rest =>
    obtain ⟨here, taken, later, run, further, rfl⟩ := statements_cons_eq_some.mp found
    have below := statements_shallower further
    rw [List.map_drop] at below
    refine statements_cons_eq_some.mpr ⟨here, taken, later, statement_shallower run, below, ?_⟩
    rw [Line.shallower, joins_shallower]
termination_by 4 * lines.length

/-- The statements that start on a line are the same ones. -/
theorem statement_shallower {grammar : Parse Content} {less level taken : Nat} {tail : List Note} {line : Line}
    {rest : List Line} {nodes : List Node}
    (found : statement grammar (level + less) tail line rest = some (nodes, taken)) :
    statement grammar level (tail.map (Note.shallower less)) (line.shallower less)
      (rest.map (Line.shallower less)) = some (nodes, taken) := by
  rcases statement_eq_some.mp found with ⟨read, rfl⟩ | ⟨applied, below, read, run, rfl⟩ |
    ⟨head, node, read, run, rfl⟩
  · exact statement_eq_some.mpr (.inl ⟨read, rfl⟩)
  · exact statement_eq_some.mpr (.inr (.inl ⟨applied, below, read, decorated_shallower run, rfl⟩))
  · exact statement_eq_some.mpr (.inr (.inr ⟨head, node, read, compound_shallower run, rfl⟩))
termination_by 4 * rest.length + 3

/-- What decorators are applied to is the same. -/
theorem decorated_shallower {less level taken : Nat} {tail : List Note} {lines : List Line} {nodes : List Node}
    (found : decorated (level + less) tail lines = some (nodes, taken)) :
    decorated level (tail.map (Note.shallower less)) (lines.map (Line.shallower less)) = some (nodes, taken) := by
  cases lines with
  | nil =>
    rw [decorated_nil] at found
    cases found
  | cons line rest =>
    rcases decorated_cons_eq_some.mp found with ⟨applied, below, count, read, run, rfl, rfl⟩ |
      ⟨head, node, count, read, defines, run, rfl, rfl⟩
    · exact decorated_cons_eq_some.mpr (.inl ⟨applied, below, count, read, decorated_shallower run, rfl, rfl⟩)
    · exact decorated_cons_eq_some.mpr
        (.inr ⟨head, node, count, read, defines, compound_shallower run, rfl, rfl⟩)
termination_by 4 * lines.length + 2

/-- The statement of a header is the same. -/
theorem compound_shallower {less level taken : Nat} {tail : List Note} {line : Line} {head : Head} {role : Role}
    {rest : List Line} {node : Node}
    (found : compound (level + less) tail line head role rest = some (node, taken)) :
    compound level (tail.map (Note.shallower less)) (line.shallower less) head role
      (rest.map (Line.shallower less)) = some (node, taken) := by
  obtain ⟨body, count, later, more, run, follow, rfl, rfl⟩ := compound_eq_some.mp found
  have behind := clauses_shallower follow
  rw [List.map_drop] at behind
  exact compound_eq_some.mpr ⟨body, count, later, more, suite_shallower run, behind, rfl, rfl⟩
termination_by 4 * rest.length + 2

/-- The body of a header is the same. -/
theorem suite_shallower {less level taken : Nat} {tail : List Note} {line : Line} {head : Head} {rest : List Line}
    {body : Node} (found : suite (level + less) tail line head rest = some (body, taken)) :
    suite level (tail.map (Note.shallower less)) (line.shallower less) head (rest.map (Line.shallower less)) =
      some (body, taken) := by
  have lines := bodyLines_shallower less level rest
  rcases suite_eq_some.mp found with ⟨block, given, rfl, rfl⟩ | ⟨given, empty, rfl, rfl⟩ |
    ⟨first, later, children, given, body, run, rfl, rfl⟩
  · exact suite_eq_some.mpr (.inl ⟨block, given, rfl, rfl⟩)
  · rw [empty] at lines
    exact suite_eq_some.mpr (.inr (.inl ⟨given, lines, rfl, rfl⟩))
  · have fewer : later.length + 1 ≤ rest.length := by
      simpa [body] using length_bodyLines_le (level + less) rest
    -- The margin of the body is greater than what all lines lose.
    have deeper := lt_margin_of_bodyLines body
    have margin : first.margin - less + less = first.margin := by omega
    have inner : statements _ (first.margin - less) (List.map _ _) (List.map _ _) = some children :=
      statements_shallower (by rw [margin]; exact run)
    have last : ((first :: later).map (Line.shallower less)).getLast (by simp) =
        Line.shallower less ((first :: later).getLast (by simp)) := List.getLast_map _
    rw [← notesBehind_shallower, List.map_drop] at inner
    rw [body, List.map_cons] at lines
    refine suite_eq_some.mpr (.inr (.inr ⟨_, _, children, given, lines, inner, by rw [List.length_map], ?_⟩))
    have stop := @blockStop_shallower less (first.margin - less) (by omega) ((first :: later).getLast (by simp))
      (notesBehind tail (rest.drop (later.length + 1)))
    rw [margin, ← last, ← notesBehind_shallower, List.map_drop] at stop
    rw [← stop]
    rfl
termination_by 4 * rest.length + 1

/-- The clauses on lines are the same ones. -/
theorem clauses_shallower {stage : Stage} {less level taken : Nat} {tail : List Note} {lines : List Line}
    {nodes : List Node} (found : clauses stage (level + less) tail lines = some (nodes, taken)) :
    clauses stage level (tail.map (Note.shallower less)) (lines.map (Line.shallower less)) =
      some (nodes, taken) := by
  cases lines with
  | nil => exact clauses_nil_eq_some.mpr (clauses_nil_eq_some.mp found)
  | cons line rest =>
    rcases clauses_cons_eq_some.mp found with ⟨follow, ends, rfl, rfl⟩ |
      ⟨next, head, body, count, later, more, follow, read, run, further, rfl, rfl⟩
    · exact clauses_cons_eq_some.mpr (.inl ⟨follow, ends, rfl, rfl⟩)
    · have behind := clauses_shallower further
      rw [List.map_drop] at behind
      exact clauses_cons_eq_some.mpr
        (.inr ⟨next, head, body, count, later, more, follow, read, suite_shallower run, behind, rfl, rfl⟩)
termination_by 4 * lines.length + 1

end

end SourceOutline.Python
