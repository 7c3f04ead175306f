import SourceOutline.Python.Structure

/-! The structure check accepts exactly the trees whose layout and parameters are legal. -/

namespace SourceOutline.Python

/-- A node occurs in a tree: it is the root, or a named part of a node that occurs in it. -/
inductive Occurs (tree : Node) : Node → Prop where
  /-- The root occurs. -/
  | root : Occurs tree tree
  /-- A named part of what occurs, occurs. -/
  | part {parent child : Node} (above : Occurs tree parent)
    (member : child ∈ parent.namedChildren) : Occurs tree child

/-- Nothing but the indentation of its row stands before the statement. -/
def OpensRow (rows : Rows) (statement : Node) : Prop :=
  statement.start.column = rowIndent rows statement.start.row

/-- The statements of a suite that open their rows start at a column. -/
def StartAt (rows : Rows) (column : Nat) (suite : Node) : Prop :=
  -- Statements behind others on a row may start anywhere.
  ∀ statement ∈ suiteStatements suite, OpensRow rows statement → statement.start.column = column

/-- A block is laid out as the body of a header: it holds a statement, and either the first one is on
the row where the header starts, or all that open their rows share a column beyond its indentation. -/
def FitsBelow (rows : Rows) (header block : Node) : Prop :=
  ∃ first later, suiteStatements block = first :: later ∧
    (first.start.row = header.start.row ∨
      ∃ column, rowIndent rows header.start.row < column ∧ StartAt rows column block)

/-- The first part of the parameter is a name. -/
def StartsWithName (parameter : Node) : Prop :=
  ∃ target, parameter.namedChildren.head? = some target ∧ target.kind = .identifier

/-- The parameter has a default value. -/
def HasDefault (parameter : Node) : Prop :=
  parameter.kind = .defaultParameter ∨ parameter.kind = .typedDefaultParameter

/-- The parameter is a name, maybe with a type, and has no default value. -/
def LacksDefault (parameter : Node) : Prop :=
  parameter.kind = .identifier ∨ (parameter.kind = .typedParameter ∧ StartsWithName parameter)

/-- The positional parameters end here: at a star, or at a parameter behind stars, with or without a
type. -/
def EndsPositional (parameter : Node) : Prop :=
  parameter.kind = .listSplat ∨ parameter.kind = .dictionarySplat ∨
    parameter.kind = .keywordSeparator ∨
    (parameter.kind = .typedParameter ∧ ¬StartsWithName parameter)

/-- A parameter without default follows one with a default only behind the positional ones. -/
def DefaultsLast (parameters : List Node) : Prop :=
  ∀ front parameter rest, parameters = front ++ parameter :: rest → LacksDefault parameter →
    (∃ earlier ∈ front, HasDefault earlier) → ∃ earlier ∈ front, EndsPositional earlier

/-- The layout of a source and the parameters in it are legal, given its syntax tree. -/
structure IsLegal (source : List Char) (tree : Node) : Prop where
  /-- The statements of the module that open their rows start at the first column. -/
  flush : StartAt (rowsOf source) 0 tree
  /-- There is no statement of the old form. -/
  modern : ∀ node, Occurs tree node → node.kind ≠ .printStatement ∧ node.kind ≠ .execStatement
  /-- Every block fits below its header. -/
  nested : ∀ header, Occurs tree header → ∀ block ∈ header.namedChildren, block.kind = .block →
    FitsBelow (rowsOf source) header block
  /-- Every list of parameters has its defaults last. -/
  ordered : ∀ node, Occurs tree node →
    node.kind = .parameters ∨ node.kind = .lambdaParameters → DefaultsLast node.namedChildren

/-- Two checks in a row succeed when each of them does. -/
theorem bind_eq_ok_iff {first second : Except Failure Unit} :
    (first >>= fun _ => second) = .ok () ↔ first = .ok () ∧ second = .ok () := by
  cases first with
  | error failure =>
    constructor
    · intro passed
      cases passed
    · rintro ⟨passed, _⟩
      cases passed
  | ok done => exact ⟨fun passed => ⟨rfl, passed⟩, fun both => both.2⟩

/-- The leading statements are those that open their rows. -/
theorem mem_leadingStatements {rows : Rows} {suite statement : Node} :
    statement ∈ leadingStatements rows suite ↔
      statement ∈ suiteStatements suite ∧ OpensRow rows statement := by
  simp only [leadingStatements, List.mem_filter, isLeading, beq_iff_eq, OpensRow]
  exact and_congr_right fun _ => eq_comm

/-- The columns of statements are accepted when each of them is the given one. -/
theorem checkColumns_eq_ok_iff {rows : Rows} {column : Nat} {statements : List Node} :
    checkColumns rows column statements = .ok () ↔
      ∀ statement ∈ statements, statement.start.column = column := by
  unfold checkColumns
  cases found : statements.find? fun statement => statement.start.column != column with
  | none => simpa using found
  | some statement =>
    -- The statement that was found is one in another column.
    have member := List.mem_of_find?_eq_some found
    have off := List.find?_some found
    simp only [bne_iff_ne] at off
    constructor
    · intro accepted
      cases accepted
    · intro aligned
      exact absurd (aligned statement member) off

/-- A suite is accepted at a given column when the statements that open their rows start there. -/
theorem checkSuite_some_eq_ok_iff {rows : Rows} {suite : Node} {column : Nat} :
    checkSuite rows suite (some column) = .ok () ↔ StartAt rows column suite := by
  show checkColumns rows column (leadingStatements rows suite) = .ok () ↔ _
  simp only [checkColumns_eq_ok_iff, mem_leadingStatements, and_imp, StartAt]

/-- Without a given column a suite is accepted when its statements share one. -/
theorem checkSuite_none_eq_ok_iff {rows : Rows} {suite : Node} :
    checkSuite rows suite none = .ok () ↔
      ∀ first, (leadingStatements rows suite).head? = some first →
        StartAt rows first.start.column suite := by
  simp only [checkSuite]
  cases opening : (leadingStatements rows suite).head? with
  | none => simp
  | some first =>
    show checkColumns rows first.start.column (leadingStatements rows suite) = .ok () ↔ _
    simp [checkColumns_eq_ok_iff, mem_leadingStatements, StartAt]

/-- A block is accepted when it fits below its header. -/
theorem checkBlock_eq_ok_iff {rows : Rows} {header block : Node} :
    checkBlock rows header.start.row block = .ok () ↔ FitsBelow rows header block := by
  unfold checkBlock FitsBelow
  cases stated : suiteStatements block with
  | nil => simp
  | cons first later =>
    by_cases beside : first.start.row = header.start.row
    · simp [beside]
    · simp only [beside, if_false]
      cases shallow : (leadingStatements rows block).find? fun statement =>
          statement.start.column ≤ rowIndent rows header.start.row with
      | some statement =>
        -- A statement that is not indented further than the header shares no column beyond it.
        have leading := mem_leadingStatements.mp (List.mem_of_find?_eq_some shallow)
        have within := List.find?_some shallow
        simp only [decide_eq_true_eq] at within
        constructor
        · intro accepted
          cases accepted
        · rintro ⟨_, _, _, same | ⟨column, beyond, aligned⟩⟩
          · rename_i split
            cases split
            exact absurd same beside
          · have placed := aligned statement leading.1 leading.2
            omega
      | none =>
        have deep : ∀ statement ∈ leadingStatements rows block,
            rowIndent rows header.start.row < statement.start.column := by
          simpa using shallow
        simp only [checkSuite_none_eq_ok_iff]
        constructor
        · intro aligned
          refine ⟨first, later, rfl, .inr ?_⟩
          cases opening : (leadingStatements rows block).head? with
          | some leader =>
            exact ⟨_, deep leader (List.mem_of_head? opening), aligned leader opening⟩
          | none =>
            -- No statement opens a row, so any column will do.
            refine ⟨_, Nat.lt_succ_self _, fun statement member opens => ?_⟩
            have leads := mem_leadingStatements.mpr ⟨member, opens⟩
            rw [List.head?_eq_none_iff.mp opening] at leads
            cases leads
        · rintro ⟨_, _, split, same | ⟨column, _, aligned⟩⟩ leader opening
          · cases split
            exact absurd same beside
          · have leads := mem_leadingStatements.mp (List.mem_of_head? opening)
            rw [aligned leader leads.1 leads.2]
            exact aligned

/-- The check of typed parameters sees whether the first part is a name. -/
theorem isPlainTyped_eq_true_iff (parameter : Node) :
    isPlainTyped parameter = true ↔ StartsWithName parameter := by
  simp [isPlainTyped, StartsWithName, Option.any_eq_true]

/-- The classes of parameters are what their names say. -/
theorem parameterClass_cases (parameter : Node) :
    (parameterClass parameter = .defaulted ∧ HasDefault parameter ∧ ¬LacksDefault parameter ∧
        ¬EndsPositional parameter) ∨
      (parameterClass parameter = .bare ∧ LacksDefault parameter ∧ ¬HasDefault parameter ∧
        ¬EndsPositional parameter) ∨
      (parameterClass parameter = .final ∧ EndsPositional parameter ∧ ¬LacksDefault parameter) ∨
      (parameterClass parameter = .neutral ∧ ¬HasDefault parameter ∧ ¬LacksDefault parameter ∧
        ¬EndsPositional parameter) := by
  -- Only a typed parameter needs a look at its parts.
  have named := isPlainTyped_eq_true_iff parameter
  cases plain : isPlainTyped parameter <;> cases kind : parameter.kind <;>
    simp_all [parameterClass, HasDefault, LacksDefault, EndsPositional]

/-- No parameter is misplaced when each one without default, once a default has been seen, stands
behind the positional ones. -/
theorem misplaced_eq_none_iff (seen : Bool) (parameters : List Node) :
    misplaced seen parameters = none ↔
      ∀ front parameter rest, parameters = front ++ parameter :: rest → LacksDefault parameter →
        (seen = true ∨ ∃ earlier ∈ front, HasDefault earlier) →
          ∃ earlier ∈ front, EndsPositional earlier := by
  induction parameters generalizing seen with
  | nil => simp [misplaced]
  | cons first later ih =>
    -- Either the first parameter itself is asked about, or it stands in front of the one that is.
    have split : ∀ goal : List Node → Node → Prop,
        (∀ front parameter rest, first :: later = front ++ parameter :: rest →
          goal front parameter) ↔
        goal [] first ∧ ∀ front parameter rest, later = front ++ parameter :: rest →
          goal (first :: front) parameter := by
      intro goal
      constructor
      · intro all
        refine ⟨all [] first later rfl, fun front parameter rest same => ?_⟩
        exact all (first :: front) parameter rest (by rw [same]; rfl)
      · rintro ⟨here, below⟩ front parameter rest same
        cases front with
        | nil =>
          cases same
          exact here
        | cons head front =>
          rw [List.cons_append] at same
          obtain ⟨rfl, behind⟩ := List.cons.inj same
          exact below front parameter rest behind
    rw [split fun front parameter => LacksDefault parameter →
      (seen = true ∨ ∃ earlier ∈ front, HasDefault earlier) →
        ∃ earlier ∈ front, EndsPositional earlier]
    rcases parameterClass_cases first with
      ⟨kind, has, lacks, goes⟩ | ⟨kind, lacks, has, goes⟩ | ⟨kind, ends, lacks⟩ |
        ⟨kind, has, lacks, goes⟩
    · simp [misplaced, kind, ih, has, lacks, goes]
    · cases seen with
      | true => simp [misplaced, kind, lacks]
      | false => simp [misplaced, kind, ih, has, goes]
    · simp [misplaced, kind, ends, lacks]
    · simp [misplaced, kind, ih, has, lacks, goes]

/-- Defaults come last when no parameter is misplaced. -/
theorem defaultsLast_iff (parameters : List Node) : DefaultsLast parameters ↔ misplaced false parameters = none := by
  have none_iff := misplaced_eq_none_iff false parameters
  simp only [Bool.false_eq_true, false_or] at none_iff
  exact none_iff.symm

/-- A list of parameters is accepted when its defaults come last. -/
theorem checkDefaults_eq_ok_iff {parameters : Node} :
    checkDefaults parameters = .ok () ↔ DefaultsLast parameters.namedChildren := by
  rw [defaultsLast_iff, checkDefaults]
  cases misplaced false parameters.namedChildren <;> simp

/-- A node keeps the rules that concern it alone. -/
def KeepsRules (node : Node) : Prop :=
  (node.kind ≠ .printStatement ∧ node.kind ≠ .execStatement) ∧
    (node.kind = .parameters ∨ node.kind = .lambdaParameters → DefaultsLast node.namedChildren)

/-- The root is accepted when it keeps the rules, whether or not it is a block. -/
theorem checkNode_none_eq_ok_iff {rows : Rows} {node : Node} :
    checkNode rows none node = .ok () ↔ KeepsRules node := by
  unfold checkNode KeepsRules
  cases kind : node.kind <;> simp [checkDefaults_eq_ok_iff]

/-- A part of a node is accepted when it keeps the rules and, being a block, fits below that node. -/
theorem checkNode_some_eq_ok_iff {rows : Rows} {header node : Node} :
    checkNode rows (some header.start.row) node = .ok () ↔
      KeepsRules node ∧ (node.kind = .block → FitsBelow rows header node) := by
  unfold checkNode KeepsRules
  cases kind : node.kind <;> simp [checkDefaults_eq_ok_iff, checkBlock_eq_ok_iff]

/-- Nodes are accepted when each of the named ones is. -/
theorem checkTrees_eq_ok_iff {rows : Rows} {headerRow : Nat} {nodes : List Node} :
    checkTrees rows headerRow nodes = .ok () ↔
      ∀ node ∈ nodes.filter Node.isNamed, checkTree rows (some headerRow) node = .ok () := by
  induction nodes with
  | nil => simp [checkTrees]
  | cons node rest ih =>
    cases named : node.isNamed with
    | true => simp [checkTrees, named, bind_eq_ok_iff, ih]
    | false => simp [checkTrees, named, ih]

/-- A tree is accepted when its root is and each of its named parts. -/
theorem checkTree_eq_ok_iff {rows : Rows} {headerRow : Option Nat} {node : Node} :
    checkTree rows headerRow node = .ok () ↔
      checkNode rows headerRow node = .ok () ∧
        ∀ child ∈ node.namedChildren, checkTree rows (some node.start.row) child = .ok () := by
  cases node with
  | mk kind role start stop children =>
    rw [checkTree, bind_eq_ok_iff, checkTrees_eq_ok_iff]
    rfl

/-- A named part is smaller than the node that it belongs to. -/
theorem sizeOf_lt_of_mem_namedChildren {node child : Node} (member : child ∈ node.namedChildren) :
    sizeOf child < sizeOf node := by
  have inside := List.sizeOf_lt_of_mem (List.mem_filter.mp member).1
  cases node with
  | mk kind role start stop children =>
    simp only [Node.children, Node.mk.sizeOf_spec] at inside ⊢
    omega

/-- What occurs in a part of a node occurs in the node. -/
theorem Occurs.of_part {tree child node : Node} (member : child ∈ tree.namedChildren)
    (occurs : Occurs child node) : Occurs tree node := by
  induction occurs with
  | root => exact .part .root member
  | part _ inside ih => exact .part ih inside

/-- The parts of every node that occurs in an accepted tree are accepted. -/
theorem Occurs.checkTree_part {rows : Rows} {headerRow : Option Nat} {tree node : Node}
    (occurs : Occurs tree node) (accepted : checkTree rows headerRow tree = .ok ()) :
    ∀ child ∈ node.namedChildren, checkTree rows (some node.start.row) child = .ok () := by
  induction occurs with
  | root => exact (checkTree_eq_ok_iff.mp accepted).2
  | part _ member ih => exact (checkTree_eq_ok_iff.mp (ih _ member)).2

/-- A tree is accepted when its root and every part of a node that occurs in it are. -/
theorem checkTree_eq_ok_iff_forall {rows : Rows} {headerRow : Option Nat} (tree : Node) :
    checkTree rows headerRow tree = .ok () ↔
      checkNode rows headerRow tree = .ok () ∧
        ∀ header, Occurs tree header → ∀ child ∈ header.namedChildren,
          checkNode rows (some header.start.row) child = .ok () := by
  constructor
  · intro accepted
    refine ⟨(checkTree_eq_ok_iff.mp accepted).1, fun header occurs child member => ?_⟩
    exact (checkTree_eq_ok_iff.mp (occurs.checkTree_part accepted child member)).1
  · rintro ⟨root, parts⟩
    -- The parts are smaller trees, in which nothing occurs that does not occur in the whole.
    refine checkTree_eq_ok_iff.mpr ⟨root, fun child member => ?_⟩
    have smaller := sizeOf_lt_of_mem_namedChildren member
    refine (checkTree_eq_ok_iff_forall child).mpr ⟨parts tree .root child member, ?_⟩
    intro header occurs
    exact parts header (occurs.of_part member)
termination_by sizeOf tree

/-- Every node that occurs is the root or a part of one that occurs. -/
theorem forall_occurs_iff (tree : Node) (property : Node → Prop) :
    (∀ node, Occurs tree node → property node) ↔
      property tree ∧ ∀ header, Occurs tree header → ∀ child ∈ header.namedChildren,
        property child := by
  constructor
  · intro all
    exact ⟨all tree .root, fun header occurs child member => all child (.part occurs member)⟩
  · rintro ⟨root, parts⟩ node occurs
    cases occurs with
    | root => exact root
    | part above member => exact parts _ above node member

/-- The structure check succeeds exactly on the trees that are legal. -/
theorem checkStructure_eq_ok_iff (source : List Char) (tree : Node) :
    checkStructure source tree = .ok () ↔ IsLegal source tree := by
  have rules := forall_occurs_iff tree KeepsRules
  rw [checkStructure, bind_eq_ok_iff, checkSuite_some_eq_ok_iff, checkTree_eq_ok_iff_forall,
    checkNode_none_eq_ok_iff]
  simp only [checkNode_some_eq_ok_iff]
  constructor
  · rintro ⟨flush, root, parts⟩
    have kept := rules.mpr ⟨root, fun header occurs child member =>
      (parts header occurs child member).1⟩
    exact {
      flush := flush
      modern := fun node occurs => (kept node occurs).1
      nested := fun header occurs block member => (parts header occurs block member).2
      ordered := fun node occurs => (kept node occurs).2 }
  · intro legal
    have kept := rules.mp fun node occurs => ⟨legal.modern node occurs, legal.ordered node occurs⟩
    exact ⟨legal.flush, kept.1, fun header occurs child member =>
      ⟨kept.2 header occurs child member, legal.nested header occurs child member⟩⟩

end SourceOutline.Python
