import SourceOutline.Proofs.Python.Legality

/-! Which of the nodes that break a rule is reported by the structure check. -/

namespace SourceOutline.Python

/-- The parts of a node stand in the order of the source: all of them between its ends, each behind the ones
before it, and so do the parts of each part. -/
inductive Node.InOrder : Node → Prop where
  /-- The parts are in order. -/
  | node {node : Node} (forward : node.start.offset ≤ node.stop.offset)
    (inside : ∀ part ∈ node.namedChildren,
      node.start.offset ≤ part.start.offset ∧ part.stop.offset ≤ node.stop.offset)
    (apart : node.namedChildren.Pairwise fun left right => left.stop.offset ≤ right.start.offset)
    (parts : ∀ part ∈ node.namedChildren, part.InOrder) : node.InOrder

/-- A block is indented below a header: its first statement is not on the row where the header starts. -/
def IsBelow (header block : Node) : Prop :=
  block.kind = .block ∧ ∀ first, (suiteStatements block).head? = some first → first.start.row ≠ header.start.row

/-- The first statement of a suite that opens its row. -/
def Leads (rows : Rows) (suite leader : Node) : Prop :=
  ∃ front rest, suiteStatements suite = front ++ leader :: rest ∧ OpensRow rows leader ∧
    ∀ earlier ∈ front, ¬OpensRow rows earlier

/-- A node breaks the rule that is checked at a site, which is a part of a header unless it is the root. -/
inductive Breaks (rows : Rows) (header : Option Node) (site : Node) : Node → Prop where
  /-- The site is a statement of the old form. -/
  | old (kind : site.kind = .printStatement ∨ site.kind = .execStatement) : Breaks rows header site site
  /-- The site is a block without statements. -/
  | empty (given : header.isSome) (block : site.kind = .block) (nothing : suiteStatements site = []) :
    Breaks rows header site site
  /-- A statement of a block is not indented further than the row where the header starts. -/
  | shallow {above statement : Node} (given : header = some above) (below : IsBelow above site)
    (member : statement ∈ suiteStatements site) (opens : OpensRow rows statement)
    (narrow : statement.start.column ≤ rowIndent rows above.start.row) : Breaks rows header site statement
  /-- A statement of a block starts in another column than the first one that opens its row. -/
  | uneven {above leader statement : Node} (given : header = some above) (below : IsBelow above site)
    (leads : Leads rows site leader) (member : statement ∈ suiteStatements site) (opens : OpensRow rows statement)
    (other : statement.start.column ≠ leader.start.column) : Breaks rows header site statement
  /-- A parameter without default follows one with a default before the positional ones end. -/
  | unordered {front rest : List Node} {parameter : Node}
    (kind : site.kind = .parameters ∨ site.kind = .lambdaParameters)
    (split : site.namedChildren = front ++ parameter :: rest) (lacks : LacksDefault parameter)
    (behind : ∃ earlier ∈ front, HasDefault earlier) (positional : ∀ earlier ∈ front, ¬EndsPositional earlier) :
    Breaks rows header site parameter

/-- A node breaks a rule at some site in a tree. -/
inductive BreaksIn (rows : Rows) : Option Node → Node → Node → Node → Prop where
  /-- The site is the root. -/
  | root {header : Option Node} {tree culprit : Node} (breaks : Breaks rows header tree culprit) :
    BreaksIn rows header tree tree culprit
  /-- The site lies in a part. -/
  | part {header : Option Node} {tree child site culprit : Node} (member : child ∈ tree.namedChildren)
    (deeper : BreaksIn rows (some tree) child site culprit) : BreaksIn rows header tree site culprit

/-- A node offends at some site in the tree of a source. -/
inductive Offends (source : List Char) (tree : Node) : Node → Node → Prop where
  /-- A statement of the module opens its row, but not in the first column. -/
  | flush {statement : Node} (member : statement ∈ suiteStatements tree) (opens : OpensRow (rowsOf source) statement)
    (indented : statement.start.column ≠ 0) : Offends source tree tree statement
  /-- One of the other rules is broken. -/
  | rule {site culprit : Node} (breaks : BreaksIn (rowsOf source) none tree site culprit) :
    Offends source tree site culprit

/-- An offence is passed over in favour of a node at a site: its own site lies in a part of that site that
stands before the node, or it is the offence of such a part in a block in which the node is indented less. -/
def IsPassedOver (site first otherSite other : Node) : Prop :=
  ∃ front rest, site.namedChildren = front ++ first :: rest ∧
    ((∃ sibling ∈ front, Occurs sibling otherSite) ∨
      otherSite = site ∧ site.kind = .block ∧ other ∈ front ∧ first.start.column < other.start.column)

section

variable {tree node : Node}

/-- Parts of nodes in order are in order. -/
theorem Node.InOrder.part {child : Node} (ordered : node.InOrder) (member : child ∈ node.namedChildren) :
    child.InOrder := by
  cases ordered with
  | node forward inside apart parts => exact parts child member

/-- A node in order does not end before it starts. -/
theorem Node.InOrder.forward (ordered : node.InOrder) : node.start.offset ≤ node.stop.offset := by
  cases ordered
  assumption

/-- What occurs in a node in order is in order and lies between its ends. -/
theorem Occurs.within (ordered : tree.InOrder) (occurs : Occurs tree node) :
    node.InOrder ∧ tree.start.offset ≤ node.start.offset ∧ node.stop.offset ≤ tree.stop.offset := by
  induction occurs with
  | root => exact ⟨ordered, Nat.le_refl _, Nat.le_refl _⟩
  | part above member ih =>
    obtain ⟨order, starts, stops⟩ := ih
    cases order with
    | node forward inside apart parts =>
      obtain ⟨starts', stops'⟩ := inside _ member
      exact ⟨parts _ member, Nat.le_trans starts starts', Nat.le_trans stops' stops⟩

/-- What occurs behind a part does not start before that part ends. -/
theorem Node.InOrder.stop_le_of_split {front rest : List Node} {part child inner : Node} (ordered : node.InOrder)
    (split : node.namedChildren = front ++ part :: rest) (member : child ∈ rest) (occurs : Occurs child inner) :
    part.stop.offset ≤ inner.start.offset := by
  have whole : child ∈ node.namedChildren := by
    rw [split]
    exact List.mem_append_right front (List.mem_cons_of_mem part member)
  have starts := (occurs.within (ordered.part whole)).2.1
  cases ordered with
  | node forward inside apart parts =>
    rw [split] at apart
    exact Nat.le_trans ((List.pairwise_cons.mp (List.pairwise_append.mp apart).2.1).1 child member) starts

/-- What occurs in a part or behind it does not start before that part. -/
theorem Node.InOrder.le_of_split {front rest : List Node} {part child inner : Node} (ordered : node.InOrder)
    (split : node.namedChildren = front ++ part :: rest) (member : child ∈ part :: rest)
    (occurs : Occurs child inner) : part.start.offset ≤ inner.start.offset := by
  have order : part.InOrder := ordered.part (by rw [split]; simp)
  rcases List.mem_cons.mp member with rfl | behind
  · exact (occurs.within order).2.1
  · exact Nat.le_trans order.forward (ordered.stop_le_of_split split behind occurs)

/-- What occurs in a part does not start before another part, unless it occurs in one that stands before it. -/
theorem Node.InOrder.le_or_mem_front {front rest : List Node} {part child inner : Node} (ordered : node.InOrder)
    (split : node.namedChildren = front ++ part :: rest) (member : child ∈ node.namedChildren)
    (occurs : Occurs child inner) : part.start.offset ≤ inner.start.offset ∨ child ∈ front := by
  rw [split] at member
  rcases List.mem_append.mp member with before | behind
  · exact .inr before
  · exact .inl (ordered.le_of_split split behind occurs)

end

section

variable {rows : Rows} {header : Option Node} {tree site culprit : Node}

/-- The statements of a suite are among its parts. -/
theorem mem_namedChildren_of_mem_suiteStatements {statement : Node} (member : statement ∈ suiteStatements site) :
    statement ∈ site.namedChildren :=
  (List.mem_filter.mp member).1

/-- What breaks a rule at a site is the site itself or one of its parts. -/
theorem Breaks.own (breaks : Breaks rows header site culprit) : culprit = site ∨ culprit ∈ site.namedChildren := by
  cases breaks with
  | old => exact .inl rfl
  | empty => exact .inl rfl
  | shallow given below member => exact .inr (mem_namedChildren_of_mem_suiteStatements member)
  | uneven given below leads member => exact .inr (mem_namedChildren_of_mem_suiteStatements member)
  | unordered kind split => exact .inr (by rw [split]; simp)

/-- What breaks a rule at a site occurs in it. -/
theorem Breaks.occurs (breaks : Breaks rows header site culprit) : Occurs site culprit := by
  rcases breaks.own with rfl | member
  · exact .root
  · exact .part .root member

/-- The site of what breaks a rule in a tree occurs in that tree. -/
theorem BreaksIn.occurs_site (breaks : BreaksIn rows header tree site culprit) : Occurs tree site := by
  induction breaks with
  | root => exact .root
  | part member _ ih => exact ih.of_part member

/-- What breaks a rule in a tree occurs in it. -/
theorem BreaksIn.occurs (breaks : BreaksIn rows header tree site culprit) : Occurs tree culprit := by
  induction breaks with
  | root breaks => exact breaks.occurs
  | part member _ ih => exact ih.of_part member

/-- The first of the statements that open their rows is the one that leads. -/
theorem leads_of_head? {suite leader : Node} (first : (leadingStatements rows suite).head? = some leader) :
    Leads rows suite leader := by
  rw [leadingStatements, List.head?_filter] at first
  obtain ⟨opens, front, rest, split, before⟩ := List.find?_eq_some_iff_append.mp first
  have opensRow : ∀ statement, isLeading rows statement = true ↔ OpensRow rows statement :=
    fun statement => by rw [isLeading, beq_iff_eq, OpensRow, eq_comm]
  refine ⟨front, rest, split, (opensRow _).mp opens, fun earlier member opens' => ?_⟩
  simpa [(opensRow _).mpr opens'] using before earlier member

/-- There is only one statement that leads. -/
theorem Leads.unique {suite leader other : Node} (leads : Leads rows suite leader) (leads' : Leads rows suite other) :
    other = leader := by
  obtain ⟨front, rest, split, opens, before⟩ := leads
  obtain ⟨front', rest', split', opens', before'⟩ := leads'
  rw [split] at split'
  -- If one of them stood further back, the other would be among those before it, none of which opens its row.
  rcases List.append_eq_append_iff.mp split' with ⟨more, rfl, behind⟩ | ⟨more, rfl, behind⟩
  · cases more with
    | nil => exact (List.cons.inj behind).1.symm
    | cons next more =>
      obtain ⟨rfl, -⟩ := List.cons.inj behind
      exact absurd opens (before' leader (by simp))
  · cases more with
    | nil => exact (List.cons.inj behind).1
    | cons next more =>
      obtain ⟨rfl, -⟩ := List.cons.inj behind
      exact absurd opens' (before other (by simp))

/-- A statement that is looked for among those that open their rows is the first of its kind. -/
theorem exists_of_find? {suite statement : Node} {property : Node → Bool}
    (found : (leadingStatements rows suite).find? property = some statement) :
    statement ∈ suiteStatements suite ∧ OpensRow rows statement ∧ property statement = true ∧
      ∃ front rest, suite.namedChildren = front ++ statement :: rest ∧
        ∀ other ∈ front, other ∈ suiteStatements suite → OpensRow rows other → property other = false := by
  have leading := mem_leadingStatements.mp (List.mem_of_find?_eq_some found)
  refine ⟨leading.1, leading.2, List.find?_some found, ?_⟩
  -- The parts are searched for a statement that opens its row and has the property, so it is they that are split.
  rw [leadingStatements, suiteStatements, List.filter_filter, List.find?_filter] at found
  obtain ⟨-, front, rest, split, before⟩ := List.find?_eq_some_iff_append.mp found
  refine ⟨front, rest, split, fun other member stated opens => ?_⟩
  have plain := (List.mem_filter.mp stated).2
  have leads : isLeading rows other = true := by rw [isLeading, beq_iff_eq]; exact opens.symm
  simpa [plain, leads] using before other member

/-- A failure of indentation is reported at the statement. -/
theorem exists_indentFailure (rows : Rows) (statement : Node) :
    ∃ message, indentFailure rows statement = failureAt statement message := by
  rw [indentFailure]
  split
  · split <;> exact ⟨_, rfl⟩
  · exact ⟨_, rfl⟩

/-- Columns fail at the first statement that starts in another one. -/
theorem find?_of_checkColumns {column : Nat} {statements : List Node} {failure : Failure}
    (failed : checkColumns rows column statements = .error failure) :
    ∃ statement message, statements.find? (fun statement => statement.start.column != column) = some statement ∧
      failure = failureAt statement message := by
  unfold checkColumns at failed
  split at failed
  · rename_i statement found
    cases failed
    obtain ⟨message, same⟩ := exists_indentFailure rows statement
    exact ⟨statement, message, found, same⟩
  · cases failed

/-- A failure is that of a node that breaks the rule at a site, and no other node that breaks it there stands
before this one unless it is passed over. -/
def Blames (rows : Rows) (header : Option Node) (site : Node) (failure : Failure) : Prop :=
  ∃ first message, failure = failureAt first message ∧ Breaks rows header site first ∧
    ∀ other, Breaks rows header site other →
      first.start.offset ≤ other.start.offset ∨ IsPassedOver site first site other

/-- Nothing in a site stands before the site itself. -/
theorem blames_site (ordered : site.InOrder) (breaks : Breaks rows header site site) (message : String) :
    Blames rows header site (failureAt site message) :=
  ⟨site, message, rfl, breaks, fun _ breaks' => .inl (breaks'.occurs.within ordered).2.1⟩

/-- What breaks the rules of a block that is indented below its header is a statement that opens its row. -/
theorem Breaks.cases_below {above other first : Node} {later : List Node} (kind : site.kind = .block)
    (stated : suiteStatements site = first :: later) (breaks : Breaks rows (some above) site other) :
    other ∈ suiteStatements site ∧ OpensRow rows other ∧
      (other.start.column ≤ rowIndent rows above.start.row ∨
        ∃ leader, Leads rows site leader ∧ other.start.column ≠ leader.start.column) := by
  cases breaks with
  | old kind' => simp [kind] at kind'
  | empty given block nothing =>
    rw [stated] at nothing
    cases nothing
  | shallow given below member opens narrow =>
    cases given
    exact ⟨member, opens, .inl narrow⟩
  | uneven given below leads member opens apart => exact ⟨member, opens, .inr ⟨_, leads, apart⟩⟩
  | unordered kind' => simp [kind] at kind'

/-- The first statement of a block that is not indented further than its header is to blame. -/
theorem blames_of_shallow {above opening first : Node} {later : List Node} (ordered : site.InOrder)
    (below : IsBelow above site) (stated : suiteStatements site = opening :: later)
    (found : (leadingStatements rows site).find? (fun statement =>
      statement.start.column ≤ rowIndent rows above.start.row) = some first) :
    Blames rows (some above) site (failureAt first blockMessage) := by
  obtain ⟨member, opens, narrow, front, rest, split, before⟩ := exists_of_find? found
  have narrow : first.start.column ≤ rowIndent rows above.start.row := by simpa using narrow
  refine ⟨first, blockMessage, rfl, .shallow rfl below member opens narrow, fun other breaks => ?_⟩
  obtain ⟨member', opens', -⟩ := breaks.cases_below below.1 stated
  refine (ordered.le_or_mem_front split (mem_namedChildren_of_mem_suiteStatements member') .root).imp_right
    fun inside => ?_
  -- A statement before the first shallow one is indented further than it.
  have deep : ¬other.start.column ≤ rowIndent rows above.start.row := by
    simpa using before other inside member' opens'
  exact ⟨front, rest, split, .inr ⟨rfl, below.1, inside, by omega⟩⟩

/-- When all statements of a block are indented further than its header, the first uneven one is to blame. -/
theorem blames_of_uneven {above opening : Node} {later : List Node} {failure : Failure} (ordered : site.InOrder)
    (below : IsBelow above site) (stated : suiteStatements site = opening :: later)
    (deep : ∀ statement ∈ suiteStatements site, OpensRow rows statement →
      ¬statement.start.column ≤ rowIndent rows above.start.row)
    (failed : checkSuite rows site none = .error failure) : Blames rows (some above) site failure := by
  rw [checkSuite] at failed
  cases opens : (leadingStatements rows site).head? with
  | none =>
    simp only [opens] at failed
    cases failed
  | some leader =>
    simp only [opens] at failed
    obtain ⟨first, message, found, rfl⟩ := find?_of_checkColumns failed
    obtain ⟨member, opens', apart, front, rest, split, before⟩ := exists_of_find? found
    have leads := leads_of_head? opens
    have uneven := Breaks.uneven rfl below leads member opens' (by simpa using apart)
    refine ⟨first, message, rfl, uneven, fun other breaks => .inl ?_⟩
    obtain ⟨member', opens'', narrow | ⟨leader', leads', apart'⟩⟩ := breaks.cases_below below.1 stated
    · exact absurd narrow (deep other member' opens'')
    · -- The statements before the first one in another column are in that of the leader.
      rw [leads.unique leads'] at apart'
      refine (ordered.le_or_mem_front split (mem_namedChildren_of_mem_suiteStatements member') .root).resolve_right
        fun inside => ?_
      exact apart' (by simpa using before other inside member' opens'')

/-- A block fails at a node to blame. -/
theorem blames_of_checkBlock {above : Node} {failure : Failure} (ordered : site.InOrder) (kind : site.kind = .block)
    (failed : checkBlock rows above.start.row site = .error failure) : Blames rows (some above) site failure := by
  unfold checkBlock at failed
  cases stated : suiteStatements site with
  | nil =>
    simp only [stated] at failed
    cases failed
    exact blames_site ordered (.empty rfl kind stated) blockMessage
  | cons opening later =>
    simp only [stated] at failed
    split at failed
    · cases failed
    · rename_i apart
      have below : IsBelow above site := ⟨kind, by simpa [stated] using apart⟩
      cases shallow : (leadingStatements rows site).find? fun statement =>
          statement.start.column ≤ rowIndent rows above.start.row with
      | some first =>
        simp only [shallow] at failed
        cases failed
        exact blames_of_shallow ordered below stated shallow
      | none =>
        simp only [shallow] at failed
        refine blames_of_uneven ordered below stated (fun statement member opens => ?_) failed
        simpa using List.find?_eq_none.mp shallow statement (mem_leadingStatements.mpr ⟨member, opens⟩)

/-- The parameter that is found misplaced is the first one that is. -/
theorem misplaced_eq_some {seen : Bool} {parameters : List Node} {parameter : Node}
    (found : misplaced seen parameters = some parameter) :
    ∃ front rest, parameters = front ++ parameter :: rest ∧ LacksDefault parameter ∧
      (seen = true ∨ ∃ earlier ∈ front, HasDefault earlier) ∧ (∀ earlier ∈ front, ¬EndsPositional earlier) ∧
        misplaced seen front = none := by
  induction parameters generalizing seen with
  | nil => cases found
  | cons first later ih =>
    -- Unless the first parameter is to blame, it may only tell that a default has been seen.
    have further : ∀ now, misplaced now later = some parameter → ¬EndsPositional first →
        (now = true → seen = true ∨ HasDefault first) →
        (∀ front, misplaced seen (first :: front) = misplaced now front) →
        ∃ front rest, first :: later = front ++ parameter :: rest ∧ LacksDefault parameter ∧
          (seen = true ∨ ∃ earlier ∈ front, HasDefault earlier) ∧ (∀ earlier ∈ front, ¬EndsPositional earlier) ∧
            misplaced seen front = none := by
      intro now found goes given step
      obtain ⟨front, rest, rfl, lacks, behind, positional, free⟩ := ih found
      refine ⟨first :: front, rest, rfl, lacks, ?_, List.forall_mem_cons.mpr ⟨goes, positional⟩,
        (step front).trans free⟩
      rcases behind with now | ⟨earlier, member, has⟩
      · exact (given now).imp_right fun has => ⟨first, List.mem_cons_self, has⟩
      · exact .inr ⟨earlier, List.mem_cons_of_mem first member, has⟩
    rcases parameterClass_cases first with
      ⟨kind, has, -, goes⟩ | ⟨kind, lacks, -, goes⟩ | ⟨kind, -, -⟩ | ⟨kind, -, -, goes⟩
    · exact further true (by simpa [misplaced, kind] using found) goes (fun _ => .inr has)
        fun front => by simp [misplaced, kind]
    · cases seen with
      | true =>
        obtain rfl : first = parameter := by simpa [misplaced, kind] using found
        exact ⟨[], later, rfl, lacks, .inl rfl, by simp, rfl⟩
      | false =>
        exact further false (by simpa [misplaced, kind] using found) goes (by simp)
          fun front => by simp [misplaced, kind]
    · simp [misplaced, kind] at found
    · exact further seen (by simpa [misplaced, kind] using found) goes .inl fun front => by simp [misplaced, kind]

/-- A list of parameters fails at a node to blame. -/
theorem blames_of_checkDefaults {failure : Failure} (ordered : site.InOrder)
    (kind : site.kind = .parameters ∨ site.kind = .lambdaParameters)
    (failed : checkDefaults site = .error failure) : Blames rows header site failure := by
  unfold checkDefaults at failed
  split at failed
  · rename_i first found
    cases failed
    obtain ⟨front, rest, split, lacks, behind, positional, free⟩ := misplaced_eq_some found
    have behind : ∃ earlier ∈ front, HasDefault earlier := by simpa using behind
    refine ⟨first, _, rfl, .unordered kind split lacks behind positional, fun other breaks => .inl ?_⟩
    cases breaks with
    | old kind' => rcases kind with kind | kind <;> simp [kind] at kind'
    | empty given block => rcases kind with kind | kind <;> simp [kind] at block
    | shallow given below => rcases kind with kind | kind <;> simp [IsBelow, kind] at below
    | uneven given below => rcases kind with kind | kind <;> simp [IsBelow, kind] at below
    | @unordered front' rest' _ kind' split' lacks' behind' positional' =>
      rcases List.append_eq_append_iff.mp (split.symm.trans split') with ⟨more, rfl, back⟩ | ⟨more, rfl, back⟩
      · have member : other ∈ first :: rest := by rw [back]; simp
        exact ordered.le_of_split split member .root
      · cases more with
        | nil =>
          obtain ⟨rfl, -⟩ := List.cons.inj back
          exact Nat.le_refl _
        | cons next more =>
          -- The other parameter would have been found before.
          obtain ⟨rfl, -⟩ := List.cons.inj back
          obtain ⟨earlier, member, ends⟩ :=
            (misplaced_eq_none_iff false _).mp free front' other more rfl lacks' (.inr behind')
          exact absurd ends (positional' earlier member)
  · cases failed

/-- A node fails at a node to blame. -/
theorem blames_of_checkNode {failure : Failure} (ordered : site.InOrder)
    (failed : checkNode rows (header.map fun above => above.start.row) site = .error failure) :
    Blames rows header site failure := by
  unfold checkNode at failed
  split at failed
  · rename_i kind
    cases failed
    exact blames_site ordered (.old (.inl kind)) _
  · rename_i kind
    cases failed
    exact blames_site ordered (.old (.inr kind)) _
  · rename_i kind given
    obtain ⟨above, rfl, rfl⟩ := Option.map_eq_some_iff.mp given
    exact blames_of_checkBlock ordered kind failed
  · rename_i kind
    exact blames_of_checkDefaults ordered (.inl kind) failed
  · rename_i kind
    exact blames_of_checkDefaults ordered (.inr kind) failed
  · cases failed

/-- A node at which a rule is broken is refused. -/
theorem Breaks.refused (breaks : Breaks rows header site culprit) :
    checkNode rows (header.map fun above => above.start.row) site ≠ .ok () := by
  intro accepted
  have keeps : KeepsRules site := by
    cases header with
    | none => exact checkNode_none_eq_ok_iff.mp accepted
    | some above => exact (checkNode_some_eq_ok_iff.mp accepted).1
  have fits : ∀ above, header = some above → site.kind = .block → FitsBelow rows above site := by
    rintro above rfl
    exact (checkNode_some_eq_ok_iff.mp accepted).2
  cases breaks with
  | old kind => exact kind.elim keeps.1.1 keeps.1.2
  | empty given block nothing =>
    obtain ⟨above, given⟩ := Option.isSome_iff_exists.mp given
    obtain ⟨first, later, stated, -⟩ := fits above given block
    rw [nothing] at stated
    cases stated
  | @shallow above _ given below member opens narrow =>
    obtain ⟨first, later, stated, same | ⟨column, beyond, starts⟩⟩ := fits above given below.1
    · exact below.2 first (by rw [stated]; rfl) same
    · rw [starts _ member opens] at narrow
      omega
  | @uneven above leader _ given below leads member opens other =>
    obtain ⟨first, later, stated, same | ⟨column, beyond, starts⟩⟩ := fits above given below.1
    · exact below.2 first (by rw [stated]; rfl) same
    · obtain ⟨front, rest, split, opens', -⟩ := leads
      exact other ((starts _ member opens).trans (starts leader (by rw [split]; simp) opens').symm)
  | unordered kind split lacks behind positional =>
    obtain ⟨earlier, member, ends⟩ := keeps.2 kind _ _ _ split lacks behind
    exact positional earlier member ends

/-- A tree in which a rule is broken is refused. -/
theorem BreaksIn.refused (breaks : BreaksIn rows header tree site culprit) :
    checkTree rows (header.map fun above => above.start.row) tree ≠ .ok () := by
  intro accepted
  induction breaks with
  | root breaks => exact breaks.refused (checkTree_eq_ok_iff.mp accepted).1
  | part member _ ih => exact ih ((checkTree_eq_ok_iff.mp accepted).2 _ member)

/-- Of two checks in a row the second one fails only when the first one does not. -/
theorem bind_eq_error_iff {first second : Except Failure Unit} {failure : Failure} :
    (first >>= fun _ => second) = .error failure ↔
      first = .error failure ∨ first = .ok () ∧ second = .error failure := by
  cases first with
  | error other => simp [bind, Except.bind]
  | ok done => simp [bind, Except.bind]

/-- Nodes fail at the first named one that does. -/
theorem exists_of_checkTrees {row : Nat} {nodes : List Node} {failure : Failure}
    (failed : checkTrees rows row nodes = .error failure) :
    ∃ front node rest, nodes.filter Node.isNamed = front ++ node :: rest ∧
      (∀ earlier ∈ front, checkTree rows (some row) earlier = .ok ()) ∧
        checkTree rows (some row) node = .error failure := by
  induction nodes with
  | nil => simp [checkTrees] at failed
  | cons node rest ih =>
    rw [checkTrees] at failed
    split at failed
    · rename_i named
      rw [List.filter_cons_of_pos named]
      rcases bind_eq_error_iff.mp failed with here | ⟨accepted, later⟩
      · exact ⟨[], node, _, rfl, by simp, here⟩
      · obtain ⟨front, culprit, behind, split, before, here⟩ := ih later
        exact ⟨node :: front, culprit, behind, by rw [split]; rfl,
          List.forall_mem_cons.mpr ⟨accepted, before⟩, here⟩
    · rename_i keyword
      rw [List.filter_cons_of_neg keyword]
      exact ih failed

/-- What breaks a rule in a part of a site does not stand before a node to blame at that site, unless it is
passed over. -/
theorem le_or_isPassedOver {first child otherSite other : Node} (ordered : site.InOrder)
    (own : first = site ∨ first ∈ site.namedChildren) (member : child ∈ site.namedChildren)
    (breaks : BreaksIn rows (some site) child otherSite other) :
    first.start.offset ≤ other.start.offset ∨ IsPassedOver site first otherSite other := by
  rcases own with rfl | among
  · exact .inl ((breaks.occurs.of_part member).within ordered).2.1
  · obtain ⟨front, rest, split⟩ := List.append_of_mem among
    exact (ordered.le_or_mem_front split member breaks.occurs).imp_right fun inside =>
      ⟨front, rest, split, .inl ⟨child, inside, breaks.occurs_site⟩⟩

/-- A tree fails at the place of a node that breaks a rule, and of the other nodes that break one only those that
are passed over stand before it. -/
theorem exists_of_checkTree (header : Option Node) (tree : Node) (ordered : tree.InOrder) {failure : Failure}
    (failed : checkTree rows (header.map fun above => above.start.row) tree = .error failure) :
    ∃ site first message, failure = failureAt first message ∧ BreaksIn rows header tree site first ∧
      ∀ otherSite other, BreaksIn rows header tree otherSite other →
        first.start.offset ≤ other.start.offset ∨ IsPassedOver site first otherSite other := by
  have parted : checkTree rows (header.map fun above => above.start.row) tree =
      (checkNode rows (header.map fun above => above.start.row) tree >>= fun _ =>
        checkTrees rows tree.start.row tree.children) := by
    cases tree
    rw [checkTree]
    rfl
  rw [parted] at failed
  rcases bind_eq_error_iff.mp failed with here | ⟨accepted, below⟩
  · obtain ⟨first, message, same, breaks, before⟩ := blames_of_checkNode ordered here
    refine ⟨tree, first, message, same, .root breaks, fun otherSite other breaks' => ?_⟩
    cases breaks' with
    | root breaks' => exact before other breaks'
    | part member deeper => exact le_or_isPassedOver ordered breaks.own member deeper
  · -- The parts before the one that fails break no rule, and those behind it start behind its end.
    obtain ⟨front, child, rest, split, fine, fails⟩ := exists_of_checkTrees below
    have split : tree.namedChildren = front ++ child :: rest := split
    have member : child ∈ tree.namedChildren := by rw [split]; simp
    have smaller := sizeOf_lt_of_mem_namedChildren member
    obtain ⟨site, first, message, same, breaks, before⟩ :=
      exists_of_checkTree (some tree) child (ordered.part member) fails
    refine ⟨site, first, message, same, .part member breaks, fun otherSite other breaks' => ?_⟩
    cases breaks' with
    | root breaks' => exact absurd accepted breaks'.refused
    | @part _ _ inner _ _ member' deeper =>
      rw [split] at member'
      rcases List.mem_append.mp member' with inside | behind
      · exact absurd (fine inner inside) deeper.refused
      · rcases List.mem_cons.mp behind with rfl | behind
        · exact before otherSite other deeper
        · obtain ⟨order, -, stops⟩ := breaks.occurs.within (ordered.part member)
          exact .inl (Nat.le_trans order.forward
            (Nat.le_trans stops (ordered.stop_le_of_split split behind deeper.occurs)))
termination_by sizeOf tree

end

section

variable {source : List Char} {tree site culprit : Node}

/-- A module breaks no rule that is checked at it as a node. -/
theorem not_breaks_of_module {rows : Rows} (root : tree.kind = .module) : ¬Breaks rows none tree culprit := by
  intro breaks
  cases breaks with
  | old kind => simp [root] at kind
  | empty given => cases given
  | shallow given => cases given
  | uneven given => cases given
  | unordered kind => simp [root] at kind

/-- A tree with an offence is refused. -/
theorem Offends.refused (offends : Offends source tree site culprit) : checkStructure source tree ≠ .ok () := by
  intro accepted
  obtain ⟨flush, below⟩ := bind_eq_ok_iff.mp accepted
  cases offends with
  | flush member opens indented => exact indented (checkSuite_some_eq_ok_iff.mp flush _ member opens)
  | rule breaks => exact breaks.refused below

/-- A module fails at the place of an offence, and of the others only those that are passed over stand before it. -/
theorem exists_of_checkStructure (root : tree.kind = .module) (ordered : tree.InOrder) {failure : Failure}
    (failed : checkStructure source tree = .error failure) :
    ∃ site first message, failure = failureAt first message ∧ Offends source tree site first ∧
      ∀ otherSite other, Offends source tree otherSite other →
        first.start.offset ≤ other.start.offset ∨ IsPassedOver site first otherSite other := by
  rcases bind_eq_error_iff.mp failed with suite | ⟨flush, below⟩
  · obtain ⟨first, message, found, same⟩ := find?_of_checkColumns suite
    obtain ⟨member, opens, indented, front, rest, split, before⟩ := exists_of_find? found
    have indented : first.start.column ≠ 0 := by simpa using indented
    have among : first ∈ tree.namedChildren := by rw [split]; simp
    refine ⟨tree, first, message, same, .flush member opens indented, fun otherSite other offends => ?_⟩
    cases offends with
    | flush member' opens' indented' =>
      -- A statement before the first one that is indented stands in the first column.
      refine (ordered.le_or_mem_front split (mem_namedChildren_of_mem_suiteStatements member') .root).imp_right
        fun inside => ?_
      exact absurd (by simpa using before other inside member' opens') indented'
    | rule breaks =>
      cases breaks with
      | root breaks => exact absurd breaks (not_breaks_of_module root)
      | part member' deeper => exact le_or_isPassedOver ordered (.inr among) member' deeper
  · obtain ⟨site, first, message, same, breaks, before⟩ := exists_of_checkTree none tree ordered below
    refine ⟨site, first, message, same, .rule breaks, fun otherSite other offends => ?_⟩
    cases offends with
    | flush member opens indented => exact absurd (checkSuite_some_eq_ok_iff.mp flush other member opens) indented
    | rule breaks' => exact before otherSite other breaks'

/-- The structure check of a module with offences reports the place of one of them. Of the others only those stand
before it that are passed over: they lie further in, in statements or parameters that stand before the reported one
in the list whose rule that one breaks, or are more deeply indented statements of the same block. -/
theorem checkStructure_reports (root : tree.kind = .module) (ordered : tree.InOrder)
    (offends : Offends source tree site culprit) :
    ∃ site first message, Offends source tree site first ∧
      checkStructure source tree =
        .error (.syntaxFailure (first.start.row + 1) (first.start.column + 1) message) ∧
      ∀ otherSite other, Offends source tree otherSite other →
        first.start.offset ≤ other.start.offset ∨ IsPassedOver site first otherSite other := by
  cases checked : checkStructure source tree with
  | ok done => exact absurd checked offends.refused
  | error failure =>
    obtain ⟨site, first, message, rfl, breaks, before⟩ := exists_of_checkStructure root ordered checked
    exact ⟨site, first, message, breaks, rfl, before⟩

/-- A statement of the old form is passed over for an indented one behind it. -/
theorem checkStructure_reports_indented :
    let source := "print 'x'\n    y\n".toList
    let old : Node := .mk .printStatement .part {} ⟨9, 0, 9⟩ []
    let indented : Node := .mk .expressionStatement .part ⟨14, 1, 4⟩ ⟨15, 1, 5⟩ []
    let tree : Node := .mk .module .part {} ⟨16, 2, 0⟩ [old, indented]
    Offends source tree old old ∧
      checkStructure source tree = .error (.syntaxFailure 2 5 "unexpected indent") ∧
      ∃ site first message, Offends source tree site first ∧
        checkStructure source tree =
          .error (.syntaxFailure (first.start.row + 1) (first.start.column + 1) message) ∧
        ∀ otherSite other, Offends source tree otherSite other →
          first.start.offset ≤ other.start.offset ∨ IsPassedOver site first otherSite other := by
  intro source old indented tree
  have leaf : ∀ node : Node, node.children = [] → node.start.offset ≤ node.stop.offset → node.InOrder :=
    fun node bare forward => .node forward (by simp [Node.namedChildren, bare])
      (by simp [Node.namedChildren, bare]) (by simp [Node.namedChildren, bare])
  have parts : tree.namedChildren = [old, indented] := rfl
  have ordered : tree.InOrder := by
    refine .node (by decide) ?_ ?_ ?_ <;> rw [parts]
    · simp [tree, old, indented, Node.start, Node.stop]
    · simp [old, indented, Node.start, Node.stop]
    · simp [leaf old rfl (by decide), leaf indented rfl (by decide)]
  have passed : Offends source tree old old := .rule (.part (by simp [parts]) (.root (.old (.inl rfl))))
  exact ⟨passed, rfl, checkStructure_reports rfl ordered passed⟩

end

end SourceOutline.Python
