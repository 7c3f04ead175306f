import SourceOutline.Proofs.Python.Nesting
import SourceOutline.Proofs.Python.Seating
import SourceOutline.Proofs.Python.ShiftedPlaces

/-! The structure check accepts a statement again when its text is shifted to the first column. -/

namespace SourceOutline.Python

section

variable {same : Mark → Mark → Prop} {seat seat' top top' : Mark → Prop} {node node' : Node}

/-- Nodes at corresponding places hold blocks at such places. -/
theorem Node.Seated.alike (seated : node'.Seated seat' top') (alike : Node.Alike same node node')
    (seats : ∀ mark mark', same mark mark' → seat' mark' → seat mark)
    (tops : ∀ mark mark', same mark mark' → top' mark' → top mark) : node.Seated seat top := by
  induction seated generalizing node with
  | @mk node' header inside ih =>
    refine .mk (fun block member kind => ?_) fun part member => ?_
    · obtain ⟨block', member', blocks⟩ := exists_of_mem_rel alike.children.flip member
      obtain ⟨starts, sits⟩ := header block' member' (blocks.kind.trans kind)
      refine ⟨tops _ _ alike.start starts, fun statement among => ?_⟩
      obtain ⟨statement', among', statements⟩ := exists_of_mem_rel blocks.children.flip among
      exact seats _ _ statements.start (sits statement' among')
    · obtain ⟨part', member', parts⟩ := exists_of_mem_rel alike.children.flip member
      exact ih part' member' parts

/-- A node and its copy, the blocks of which hold statements that start at certain places. -/
structure SeatedAlike (same : Mark → Mark → Prop) (seat top : Mark → Prop) (node node' : Node) : Prop where
  /-- The nodes correspond. -/
  alike : Node.Alike same node node'
  /-- The statements start at such places. -/
  seated : node.Seated seat top

/-- The parts of a node and of its copy are such nodes. -/
theorem SeatedAlike.namedChildren (both : SeatedAlike same seat top node node') :
    List.Forall₂ (SeatedAlike same seat top) node.namedChildren node'.namedChildren := by
  obtain ⟨alike, ⟨_, inside⟩⟩ := both
  have each : ∀ child ∈ node.namedChildren, child.Seated seat top :=
    fun child member => inside child (List.mem_filter.mp member).1
  have alike := alike.namedChildren
  generalize node.namedChildren = parts, node'.namedChildren = parts' at alike each
  induction alike with
  | nil => exact .nil
  | cons first _ ih =>
    obtain ⟨here, later⟩ := List.forall_mem_cons.mp each
    exact .cons ⟨first, here⟩ (ih later)

end

section

variable {source text : List Char} {above width : Nat} {same : Mark → Mark → Prop} {seat : Mark → Prop}
  (rows : LessRows source text above width same seat) {node node' : Node}

include rows

/-- The statements of a suite start at one column of the text when they start at one column of the source. -/
theorem LessRows.startAt {column : Nat} (alike : Node.Alike same node node')
    (sits : ∀ statement ∈ node.children, seat statement.start)
    (starts : StartAt (rowsOf source) column node) : StartAt (rowsOf text) (column - width) node' := by
  intro statement' member opens
  obtain ⟨statement, inside, alike⟩ := exists_of_mem_rel alike.suiteStatements member
  have among : statement ∈ node.children := (List.mem_filter.mp (List.mem_filter.mp inside).1).1
  have open_row := rows.opens _ _ alike.start (sits statement among) opens
  rw [opens, rows.margin _ _ alike.start, ← open_row, starts statement inside open_row]

/-- A block fits below its header in the text when it does so in the source, and the header is indented by the width. -/
theorem LessRows.fitsBelow {header header' : Node} (headers : Node.Alike same header header')
    (deep : width ≤ rowIndent (rowsOf source) header.start.row) (alike : Node.Alike same node node')
    (sits : ∀ statement ∈ node.children, seat statement.start) (fits : FitsBelow (rowsOf source) header node) :
    FitsBelow (rowsOf text) header' node' := by
  obtain ⟨first, later, stated, layout⟩ := fits
  have statements := alike.suiteStatements
  rw [stated] at statements
  obtain ⟨first', later', firsts, _, stated'⟩ := List.forall₂_cons_left_iff.mp statements
  refine ⟨first', later', stated', ?_⟩
  rcases layout with beside | ⟨column, beyond, starts⟩
  · left
    rw [rows.row _ _ firsts.start, rows.row _ _ headers.start] at beside
    exact Nat.add_left_cancel beside
  · right
    refine ⟨column - width, ?_, rows.startAt alike sits starts⟩
    rw [rows.margin _ _ headers.start]
    omega

/-- A statement in an accepted tree is accepted when its copy stands alone at the first column. -/
theorem LessRows.checkStructure_alone {tree parent : Node} (accepted : checkStructure source tree = .ok ())
    (occurs : Occurs tree parent) (member : node ∈ parent.namedChildren)
    (both : SeatedAlike same seat (fun mark => width ≤ rowIndent (rowsOf source) mark.row) node node')
    (other : node.kind ≠ .block) (first : node'.start.column = 0) (stop : Mark) :
    checkStructure text (.mk .module .part {} stop [node']) = .ok () := by
  rw [checkStructure, bind_eq_ok_iff] at accepted ⊢
  have parts := ((checkTree_eq_ok_iff_forall tree).mp accepted.2).2
  have only : ∀ part ∈ (Node.mk .module .part {} stop [node']).namedChildren, part = node' :=
    fun part inside => List.mem_singleton.mp (List.mem_filter.mp inside).1
  refine ⟨checkSuite_some_eq_ok_iff.mpr fun statement inside _ => ?_,
    (checkTree_eq_ok_iff_forall _).mpr ⟨checkNode_none_eq_ok_iff.mpr ?_, fun header' occurs' child' inside => ?_⟩⟩
  · rw [only statement (List.mem_filter.mp inside).1]
    exact first
  · simp [KeepsRules, Node.kind]
  · rcases occurs'.eq_or_part with rfl | ⟨part, within, occurs'⟩
    · -- The statement itself is no block, so no matter what stands above it.
      rw [checkNode_some_eq_ok_iff]
      have kept := (checkNode_some_eq_ok_iff.mp (parts parent occurs node member)).1
      rw [only child' inside]
      refine ⟨kept.alike both.alike, fun kind => ?_⟩
      rw [both.alike.kind] at kind
      exact absurd kind other
    · rw [only part within] at occurs'
      obtain ⟨header, within, headers⟩ := occurs'.rel (fun _ _ => SeatedAlike.namedChildren) both
      obtain ⟨child, inside, children⟩ := exists_of_mem_rel headers.namedChildren inside
      have reached : Occurs tree header := (occurs.part member).trans within
      obtain ⟨kept, fits⟩ := checkNode_some_eq_ok_iff.mp (parts header reached child inside)
      refine checkNode_some_eq_ok_iff.mpr ⟨kept.alike children.alike, fun kind => ?_⟩
      rw [children.alike.kind] at kind
      obtain ⟨own, _⟩ := headers.seated
      obtain ⟨deep, sits⟩ := own child (List.mem_filter.mp inside).1 kind
      exact rows.fitsBelow headers.alike deep children.alike sits (fits kind)

end

end SourceOutline.Python
