import SourceOutline.Proofs.Python.Legality
import SourceOutline.Proofs.Python.Margins

/-! Trees whose nodes correspond are accepted alike. -/

namespace SourceOutline.Python

section

variable {α : Type} {related : α → α → Prop} {list list' : List α}

/-- Items of related lists have items that they are related to. -/
theorem exists_of_mem_rel (alike : List.Forall₂ related list list') {item' : α} (member : item' ∈ list') :
    ∃ item ∈ list, related item item' := by
  induction alike with
  | nil => cases member
  | cons first rest ih =>
    rcases List.mem_cons.mp member with rfl | inside
    · exact ⟨_, List.mem_cons_self, first⟩
    · obtain ⟨item, inside, same⟩ := ih inside
      exact ⟨item, List.mem_cons_of_mem _ inside, same⟩

/-- What functions make of related items makes up the same list when it is the same for each. -/
theorem map_eq_of_rel {β : Type} {f f' : α → β} (same : ∀ item item', related item item' → f' item' = f item)
    (alike : List.Forall₂ related list list') : list'.map f' = list.map f := by
  induction alike with
  | nil => rfl
  | cons first rest ih => rw [List.map_cons, List.map_cons, same _ _ first, ih]

variable {property : α → Bool} (same : ∀ item item', related item item' → property item' = property item)

include same

/-- The same items of related lists are chosen. -/
theorem filter_rel (alike : List.Forall₂ related list list') :
    List.Forall₂ related (list.filter property) (list'.filter property) := by
  induction alike with
  | nil => exact .nil
  | cons first rest ih =>
    rw [List.filter_cons, List.filter_cons, same _ _ first]
    split
    · exact .cons first ih
    · exact ih

/-- Related lists have an item that is looked for or not. -/
theorem any_rel (alike : List.Forall₂ related list list') : list'.any property = list.any property := by
  induction alike with
  | nil => rfl
  | cons first rest ih => rw [List.any_cons, List.any_cons, same _ _ first, ih]

/-- The same item of related lists is found first. -/
theorem find?_rel (alike : List.Forall₂ related list list') :
    Option.Rel related (list.find? property) (list'.find? property) := by
  induction alike with
  | nil => exact .none
  | @cons item item' _ _ first rest ih =>
    rw [List.find?_cons, List.find?_cons, same _ _ first]
    cases property item with
    | true => exact .some first
    | false => exact ih

end

section

variable {same : Mark → Mark → Prop} {node node' : Node}

/-- Corresponding nodes are of the same kind. -/
theorem Node.Alike.kind (alike : Node.Alike same node node') : node'.kind = node.kind := by
  cases alike with
  | mk starts stops parts => rfl

/-- Corresponding nodes have the same role. -/
theorem Node.Alike.role (alike : Node.Alike same node node') : node'.role = node.role := by
  cases alike with
  | mk starts stops parts => rfl

/-- The children of corresponding nodes correspond. -/
theorem Node.Alike.children (alike : Node.Alike same node node') :
    List.Forall₂ (Node.Alike same) node.children node'.children := by
  cases alike with
  | mk starts stops parts => exact parts

/-- The named children of corresponding nodes correspond. -/
theorem Node.Alike.namedChildren (alike : Node.Alike same node node') :
    List.Forall₂ (Node.Alike same) node.namedChildren node'.namedChildren :=
  filter_rel (fun _ _ alike => by rw [Node.isNamed, Node.isNamed, alike.kind]) alike.children

/-- The statements of corresponding suites correspond. -/
theorem Node.Alike.suiteStatements (alike : Node.Alike same node node') :
    List.Forall₂ (Node.Alike same) (Python.suiteStatements node) (Python.suiteStatements node') :=
  filter_rel (fun _ _ alike => by rw [Node.isComment, Node.isComment, alike.kind]) alike.namedChildren

/-- The children of corresponding nodes in one role correspond. -/
theorem Node.Alike.child? (alike : Node.Alike same node node') (role : Role) :
    Option.Rel (Node.Alike same) (node.child? role) (node'.child? role) :=
  find?_rel (fun _ _ alike => by rw [alike.role]) alike.children

/-- The parts of the child of corresponding nodes in one role correspond. -/
theorem Node.Alike.childParts (alike : Node.Alike same node node') (role : Role) :
    List.Forall₂ (Node.Alike same) (((node.child? role).map Node.namedChildren).getD [])
      (((node'.child? role).map Node.namedChildren).getD []) := by
  have child := alike.child? role
  generalize node.child? role = part, node'.child? role = part' at child ⊢
  cases child with
  | none => exact .nil
  | some part => exact part.namedChildren

/-- Parameters that correspond are of the same class. -/
theorem Node.Alike.parameterClass (alike : Node.Alike same node node') :
    Python.parameterClass node' = Python.parameterClass node := by
  have plain : isPlainTyped node' = isPlainTyped node := by
    have parts := alike.namedChildren
    unfold isPlainTyped
    generalize node.namedChildren = targets, node'.namedChildren = targets' at parts ⊢
    cases parts with
    | nil => rfl
    | cons first rest => simp [first.kind]
  unfold Python.parameterClass
  rw [alike.kind, plain]

/-- The same parameter is misplaced. -/
theorem misplaced_alike {parameters parameters' : List Node}
    (alike : List.Forall₂ (Node.Alike same) parameters parameters') (seen : Bool) :
    Option.Rel (Node.Alike same) (misplaced seen parameters) (misplaced seen parameters') := by
  induction alike generalizing seen with
  | nil => exact .none
  | cons first rest ih =>
    rw [misplaced, misplaced, first.parameterClass]
    split
    · exact .none
    · split
      · exact .some first
      · exact ih seen
    · exact ih true
    · exact ih seen

/-- Parameters that correspond have their defaults last when the others have. -/
theorem DefaultsLast.alike {parameters parameters' : List Node} (last : DefaultsLast parameters)
    (alike : List.Forall₂ (Node.Alike same) parameters parameters') : DefaultsLast parameters' := by
  rw [defaultsLast_iff] at last ⊢
  have blamed := misplaced_alike alike false
  rw [last] at blamed
  exact eq_none_of_rel_none blamed

/-- A node that corresponds to one that keeps the rules does so itself. -/
theorem KeepsRules.alike (keeps : KeepsRules node) (alike : Node.Alike same node node') :
    KeepsRules node' := by
  rw [KeepsRules, alike.kind]
  exact ⟨keeps.1, fun kind => (keeps.2 kind).alike alike.namedChildren⟩

/-- What occurs in a related tree is related to something that occurs in the tree, when parts of what is related
are related. -/
theorem Occurs.rel {related : Node → Node → Prop}
    (parts : ∀ node node', related node node' → List.Forall₂ related node.namedChildren node'.namedChildren)
    {tree tree' : Node} (occurs : Occurs tree' node') (trees : related tree tree') :
    ∃ node, Occurs tree node ∧ related node node' := by
  induction occurs with
  | root => exact ⟨tree, .root, trees⟩
  | part above member ih =>
    obtain ⟨parent, occurs, alike⟩ := ih
    obtain ⟨child, inside, alike⟩ := exists_of_mem_rel (parts _ _ alike) member
    exact ⟨child, .part occurs inside, alike⟩

/-- What occurs in a corresponding tree corresponds to something that occurs in the tree. -/
theorem Occurs.alike {tree tree' : Node} (occurs : Occurs tree' node') (trees : Node.Alike same tree tree') :
    ∃ node, Occurs tree node ∧ Node.Alike same node node' :=
  occurs.rel (fun _ _ alike => alike.namedChildren) trees

/-- What occurs in a tree is its root or occurs in a part of the root. -/
theorem Occurs.eq_or_part {tree : Node} (occurs : Occurs tree node) :
    node = tree ∨ ∃ part ∈ tree.namedChildren, Occurs part node := by
  induction occurs with
  | root => exact .inl rfl
  | part above member ih =>
    rcases ih with rfl | ⟨part, inside, occurs⟩
    · exact .inr ⟨_, member, .root⟩
    · exact .inr ⟨part, inside, .part occurs member⟩

end

section

variable {source text : List Char} {above : Nat} {same : Mark → Mark → Prop}
  (rows : AlikeRows source text above same) {node node' : Node}

include rows

/-- Statements that correspond open their rows when the others do, at the same column. -/
theorem AlikeRows.opensRow (alike : Node.Alike same node node') (opens : OpensRow (rowsOf text) node') :
    OpensRow (rowsOf source) node ∧ node.start.column = node'.start.column := by
  have column := rows.opens _ _ alike.start opens
  rw [OpensRow, rows.margin _ _ alike.start, column]
  exact ⟨opens, rfl⟩

/-- Suites that correspond start at the same column. -/
theorem AlikeRows.startAt {column : Nat} (alike : Node.Alike same node node')
    (starts : StartAt (rowsOf source) column node) : StartAt (rowsOf text) column node' := by
  intro statement' member opens
  obtain ⟨statement, inside, alike⟩ := exists_of_mem_rel alike.suiteStatements member
  obtain ⟨open_row, column⟩ := rows.opensRow alike opens
  rw [← column]
  exact starts statement inside open_row

/-- Blocks that correspond fit below headers that correspond. -/
theorem AlikeRows.fitsBelow {header header' : Node} (headers : Node.Alike same header header')
    (alike : Node.Alike same node node') (fits : FitsBelow (rowsOf source) header node) :
    FitsBelow (rowsOf text) header' node' := by
  obtain ⟨first, later, stated, layout⟩ := fits
  have statements := alike.suiteStatements
  rw [stated] at statements
  obtain ⟨first', later', firsts, _, stated'⟩ := List.forall₂_cons_left_iff.mp statements
  refine ⟨first', later', stated', ?_⟩
  rcases layout with beside | ⟨column, beyond, starts⟩
  · left
    rw [rows.row _ _ firsts.start, rows.row _ _ headers.start] at beside
    exact Nat.add_left_cancel beside
  · right
    rw [rows.margin _ _ headers.start] at beyond
    exact ⟨column, beyond, rows.startAt alike starts⟩

/-- What keeps the rules below a node keeps them below a node that corresponds. -/
theorem AlikeRows.checkNode_some {header header' : Node} (headers : Node.Alike same header header')
    (alike : Node.Alike same node node')
    (kept : checkNode (rowsOf source) (some header.start.row) node = .ok ()) :
    checkNode (rowsOf text) (some header'.start.row) node' = .ok () := by
  rw [checkNode_some_eq_ok_iff] at kept ⊢
  refine ⟨kept.1.alike alike, fun kind => rows.fitsBelow headers alike (kept.2 ?_)⟩
  rw [← alike.kind, kind]

/-- A tree that corresponds to an accepted one is accepted. -/
theorem AlikeRows.checkStructure_eq_ok {tree tree' : Node} (accepted : checkStructure source tree = .ok ())
    (alike : Node.Alike same tree tree') : checkStructure text tree' = .ok () := by
  rw [checkStructure, bind_eq_ok_iff, checkSuite_some_eq_ok_iff, checkTree_eq_ok_iff_forall,
    checkNode_none_eq_ok_iff] at accepted ⊢
  obtain ⟨flush, root, parts⟩ := accepted
  refine ⟨rows.startAt alike flush, root.alike alike, fun header' occurs child' inside => ?_⟩
  obtain ⟨header, within, headers⟩ := occurs.alike alike
  obtain ⟨child, inside, children⟩ := exists_of_mem_rel headers.namedChildren inside
  exact rows.checkNode_some headers children (parts header within child inside)

end

section

variable {source text : List Char} {above : Nat} {same : Mark → Mark → Prop}
  (rows : SameRows source text above same) {node node' : Node}

include rows

/-- A statement of an accepted tree is accepted when it stands alone at the first column. -/
theorem SameRows.checkStructure_alone {tree : Node} (accepted : checkStructure source tree = .ok ())
    (member : node ∈ tree.namedChildren) (alike : Node.Alike same node node') (other : node.kind ≠ .block)
    (first : node.start.column = 0) (stop : Mark) :
    checkStructure text (.mk .module .part {} stop [node']) = .ok () := by
  rw [checkStructure, bind_eq_ok_iff] at accepted ⊢
  have parts := ((checkTree_eq_ok_iff_forall tree).mp accepted.2).2
  have only : ∀ part ∈ (Node.mk .module .part {} stop [node']).namedChildren, part = node' :=
    fun part inside => List.mem_singleton.mp (List.mem_filter.mp inside).1
  refine ⟨checkSuite_some_eq_ok_iff.mpr fun statement inside _ => ?_,
    (checkTree_eq_ok_iff_forall _).mpr ⟨checkNode_none_eq_ok_iff.mpr ?_, fun header' occurs child' inside => ?_⟩⟩
  · rw [only statement (List.mem_filter.mp inside).1, ← rows.column _ _ alike.start]
    exact first
  · simp [KeepsRules, Node.kind]
  · rcases occurs.eq_or_part with rfl | ⟨part, within, occurs⟩
    · -- The statement itself is no block, so no matter what stands above it.
      rw [checkNode_some_eq_ok_iff]
      have kept := (checkNode_some_eq_ok_iff.mp (parts tree .root node member)).1
      rw [only child' inside]
      refine ⟨kept.alike alike, fun kind => ?_⟩
      rw [alike.kind] at kind
      exact absurd kind other
    · rw [only part within] at occurs
      obtain ⟨header, within, headers⟩ := occurs.alike alike
      obtain ⟨child, inside, children⟩ := exists_of_mem_rel headers.namedChildren inside
      exact rows.alikeRows.checkNode_some headers children (parts header (within.of_part member) child inside)

end

end SourceOutline.Python
