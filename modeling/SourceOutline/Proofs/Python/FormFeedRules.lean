import SourceOutline.Proofs.Python.FormFeedPlaces

/-! When the structure check accepts a source with a form feed in front of a row. -/

namespace SourceOutline.Python

/-- A block below a header tolerates a form feed in front of a row: its first statement is on the row of the header,
or its statements that open their rows are indented further by more than the form feed when that is in front of the
header, and no others stand beside one on the row of the form feed. -/
def BearsFeed (rows : Rows) (top : Nat) (header block : Node) : Prop :=
  (∃ first, (suiteStatements block).head? = some first ∧ first.start.row = header.start.row) ∨
    ∀ statement ∈ suiteStatements block, OpensRow rows statement →
      (header.start.row = top → rowIndent rows top + 1 < statement.start.column) ∧
        (statement.start.row = top →
          ∀ other ∈ suiteStatements block, OpensRow rows other → other.start.row = top)

/-- A tree tolerates a form feed in front of a row: no statement of the module opens the row, and every block
tolerates it. -/
structure Tolerates (rows : Rows) (top : Nat) (tree : Node) : Prop where
  /-- The statements of the module open other rows. -/
  flush : ∀ statement ∈ suiteStatements tree, OpensRow rows statement → statement.start.row ≠ top
  /-- Every block tolerates the form feed. -/
  nested : ∀ header, Occurs tree header → ∀ block ∈ header.namedChildren, block.kind = .block →
    BearsFeed rows top header block

section

variable {front : List Char} {rows rows' : Rows}
  (margins : ∀ row, rowIndent rows' row = rowIndent rows row + if row = (Mark.pass {} front).row then 1 else 0)
  {node node' header header' : Node}

include margins

/-- Statements that correspond open their rows alike. -/
theorem opensRow_displaced (alike : Node.Alike (Displaced front) node node') :
    OpensRow rows' node' ↔ OpensRow rows node := by
  rw [OpensRow, OpensRow, alike.start.row, alike.start.column, margins]
  exact Nat.add_right_cancel_iff

/-- The statements of a suite start at a column when those that correspond start there, which is one further on in the
row of the form feed. -/
theorem startAt_displaced
    (statements : List.Forall₂ (Node.Alike (Displaced front)) (suiteStatements node) (suiteStatements node'))
    (column : Nat) : StartAt rows' column node' ↔ ∀ statement ∈ suiteStatements node, OpensRow rows statement →
      statement.start.column + (if statement.start.row = (Mark.pass {} front).row then 1 else 0) = column := by
  constructor
  · intro starts statement member opens
    obtain ⟨other, inside, alike⟩ := exists_of_mem_rel statements.flip member
    rw [← alike.start.column]
    exact starts other inside ((opensRow_displaced margins alike).mpr opens)
  · intro starts other inside opens
    obtain ⟨statement, member, alike⟩ := exists_of_mem_rel statements inside
    rw [alike.start.column]
    exact starts statement member ((opensRow_displaced margins alike).mp opens)

/-- A module that starts at the first column does so with the form feed when none of its statements opens its row. -/
theorem flush_displaced
    (statements : List.Forall₂ (Node.Alike (Displaced front)) (suiteStatements node) (suiteStatements node'))
    (flush : StartAt rows 0 node) : StartAt rows' 0 node' ↔
      ∀ statement ∈ suiteStatements node, OpensRow rows statement →
        statement.start.row ≠ (Mark.pass {} front).row := by
  rw [startAt_displaced margins statements]
  refine forall_congr' fun statement => forall_congr' fun member => forall_congr' fun opens => ?_
  rw [flush statement member opens]
  split <;> simp [*]

/-- The statements of a block that starts at a column with the form feed as without it are beyond the form feed when
its header is behind it, and none is beside one that is behind it. -/
theorem deep_of_startAt {column further : Nat}
    (statements : List.Forall₂ (Node.Alike (Displaced front)) (suiteStatements node) (suiteStatements node'))
    (starts : StartAt rows column node) (starts' : StartAt rows' further node')
    (deeper : rowIndent rows' header.start.row < further) {statement : Node}
    (member : statement ∈ suiteStatements node) (opens : OpensRow rows statement) :
    (header.start.row = (Mark.pass {} front).row →
        rowIndent rows (Mark.pass {} front).row + 1 < statement.start.column) ∧
      (statement.start.row = (Mark.pass {} front).row →
        ∀ other ∈ suiteStatements node, OpensRow rows other → other.start.row = (Mark.pass {} front).row) := by
  have columns := (startAt_displaced margins statements further).mp starts'
  have here := columns statement member opens
  constructor
  · intro top
    have level : statement.start.column = rowIndent rows statement.start.row := opens
    rw [margins, if_pos top, top] at deeper
    by_cases same : statement.start.row = (Mark.pass {} front).row
    · -- A statement in the row of its header is as far in as the header, which `deeper` excludes.
      rw [if_pos same, level, same] at here
      omega
    · rw [if_neg same] at here
      omega
  · intro top other inside opens'
    have there := columns other inside opens'
    rw [starts other inside opens'] at there
    rw [if_pos top, starts statement member opens] at here
    by_contra different
    rw [if_neg different] at there
    omega

/-- The statements of a block that starts at a column start at one with the form feed as well when they are beyond the
form feed of its header and none of them is beside one that is behind the form feed. -/
theorem exists_startAt {column : Nat}
    (statements : List.Forall₂ (Node.Alike (Displaced front)) (suiteStatements node) (suiteStatements node'))
    (starts : StartAt rows column node) (beyond : rowIndent rows header.start.row < column)
    (deep : ∀ statement ∈ suiteStatements node, OpensRow rows statement →
      (header.start.row = (Mark.pass {} front).row →
          rowIndent rows (Mark.pass {} front).row + 1 < statement.start.column) ∧
        (statement.start.row = (Mark.pass {} front).row →
          ∀ other ∈ suiteStatements node, OpensRow rows other → other.start.row = (Mark.pass {} front).row)) :
    ∃ further, rowIndent rows' header.start.row < further ∧ StartAt rows' further node' := by
  simp only [startAt_displaced margins statements, margins]
  by_cases some_opens : ∃ statement ∈ suiteStatements node, OpensRow rows statement
  · -- All of them stand in the row of the form feed, or none of them does.
    obtain ⟨statement, member, opens⟩ := some_opens
    obtain ⟨far, alone⟩ := deep statement member opens
    rw [starts statement member opens] at far
    refine ⟨column + if statement.start.row = (Mark.pass {} front).row then 1 else 0, ?_, ?_⟩
    · by_cases top : header.start.row = (Mark.pass {} front).row
      · have further := far top
        rw [if_pos top, top]
        omega
      · rw [if_neg top]
        omega
    · intro other inside opens'
      rw [starts other inside opens']
      by_cases top : statement.start.row = (Mark.pass {} front).row
      · rw [if_pos top, if_pos (alone top other inside opens')]
      · have apart : other.start.row ≠ (Mark.pass {} front).row := fun top' =>
          top ((deep other inside opens').2 top' statement member opens)
        rw [if_neg top, if_neg apart]
  · exact ⟨_, Nat.lt_succ_self _, fun statement member opens => absurd ⟨statement, member, opens⟩ some_opens⟩

/-- A block that fits below its header does so with the form feed when it tolerates that. -/
theorem fitsBelow_displaced
    (statements : List.Forall₂ (Node.Alike (Displaced front)) (suiteStatements node) (suiteStatements node'))
    (row : header'.start.row = header.start.row) (fits : FitsBelow rows header node) :
    FitsBelow rows' header' node' ↔ BearsFeed rows (Mark.pass {} front).row header node := by
  obtain ⟨first, later, stated, layout⟩ := fits
  have both := statements
  rw [stated] at both
  obtain ⟨first', later', firsts, _, stated'⟩ := List.forall₂_cons_left_iff.mp both
  have head : (suiteStatements node).head? = some first := by rw [stated]; rfl
  have beside : first'.start.row = header'.start.row ↔ first.start.row = header.start.row := by
    rw [firsts.start.row, row]
  rcases layout with same | ⟨column, beyond, starts⟩
  · exact iff_of_true ⟨first', later', stated', .inl (beside.mpr same)⟩ (.inl ⟨first, head, same⟩)
  · constructor
    · rintro ⟨_, _, again, same | ⟨further, deeper, starts'⟩⟩
      · cases stated'.symm.trans again
        exact .inl ⟨first, head, beside.mp same⟩
      · rw [row] at deeper
        exact .inr fun statement member opens =>
          deep_of_startAt margins statements starts starts' deeper member opens
    · rintro (⟨_, again, same⟩ | deep)
      · cases head.symm.trans again
        exact ⟨first', later', stated', .inl (beside.mpr same)⟩
      · refine ⟨first', later', stated', .inr ?_⟩
        rw [row]
        exact exists_startAt margins statements starts beyond deep

end

namespace Node.PartsAlike

variable {front : List Char} {node node' : Node}

/-- Nodes at places that correspond have parts at such places. -/
theorem of_alike (alike : Node.Alike (Python.Displaced front) node node') : Node.PartsAlike front node node' :=
  ⟨alike.kind, alike.start.row, alike.children⟩

/-- The named parts correspond. -/
theorem namedChildren (alike : Node.PartsAlike front node node') :
    List.Forall₂ (Node.Alike (Python.Displaced front)) node.namedChildren node'.namedChildren :=
  filter_rel (fun _ _ alike => by rw [Node.isNamed, Node.isNamed, alike.kind]) alike.alike

/-- The statements of suites correspond. -/
theorem suiteStatements (alike : Node.PartsAlike front node node') :
    List.Forall₂ (Node.Alike (Python.Displaced front)) (suiteStatements node) (suiteStatements node') :=
  filter_rel (fun _ _ alike => by rw [Node.isComment, Node.isComment, alike.kind]) alike.namedChildren

/-- The parts of the named parts correspond. -/
theorem parts (alike : Node.PartsAlike front node node') :
    List.Forall₂ (Node.PartsAlike front) node.namedChildren node'.namedChildren :=
  alike.namedChildren.imp fun _ _ => of_alike

/-- What occurs in a tree of a source has its place in the tree of the copy. -/
theorem exists_copy {tree tree' : Node} (trees : Node.PartsAlike front tree tree') (occurs : Occurs tree node) :
    ∃ node', Occurs tree' node' ∧ Node.PartsAlike front node node' :=
  @Occurs.rel _ (fun node' node => Node.PartsAlike front node node') (fun _ _ alike => alike.parts.flip) _ _
    occurs trees

end Node.PartsAlike

/-- A tree that is legal is so with the form feed exactly when it tolerates that. -/
theorem isLegal_displaced {front source copy : List Char}
    (margins : ∀ row, rowIndent (rowsOf copy) row =
      rowIndent (rowsOf source) row + if row = (Mark.pass {} front).row then 1 else 0)
    {tree tree' : Node} (trees : Node.PartsAlike front tree tree') (legal : IsLegal source tree) :
    IsLegal copy tree' ↔ Tolerates (rowsOf source) (Mark.pass {} front).row tree := by
  have flush := flush_displaced margins trees.suiteStatements legal.flush
  constructor
  · intro legal'
    refine ⟨flush.mp legal'.flush, fun header occurs block member kind => ?_⟩
    obtain ⟨header', occurs', headers⟩ := trees.exists_copy occurs
    obtain ⟨block', member', blocks⟩ := exists_of_mem_rel headers.namedChildren.flip member
    have fits := legal'.nested header' occurs' block' member' (blocks.kind.trans kind)
    exact (fitsBelow_displaced margins blocks.suiteStatements headers.row (legal.nested _ occurs _ member kind)).mp fits
  · rintro ⟨others, nested⟩
    have original : ∀ {node'}, Occurs tree' node' → ∃ node, Occurs tree node ∧ Node.PartsAlike front node node' :=
      fun occurs => occurs.rel (fun _ _ alike => alike.parts) trees
    refine ⟨flush.mpr others, fun node' occurs' => ?_, fun header' occurs' block' member' kind => ?_,
      fun node' occurs' kind => ?_⟩
    · obtain ⟨node, occurs, nodes⟩ := original occurs'
      rw [nodes.kind]
      exact legal.modern node occurs
    · obtain ⟨header, occurs, headers⟩ := original occurs'
      obtain ⟨block, member, blocks⟩ := exists_of_mem_rel headers.namedChildren member'
      have own := blocks.kind.symm.trans kind
      have fits := legal.nested _ occurs _ member own
      refine (fitsBelow_displaced margins blocks.suiteStatements headers.row fits).mpr ?_
      exact nested header occurs block member own
    · obtain ⟨node, occurs, nodes⟩ := original occurs'
      rw [nodes.kind] at kind
      exact (legal.ordered node occurs kind).alike nodes.namedChildren

end SourceOutline.Python
