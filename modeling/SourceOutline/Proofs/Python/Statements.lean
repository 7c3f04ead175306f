import SourceOutline.Python.Statement

/-! What lines hold, function by function: which steps succeed, and what comes out of them. -/

namespace SourceOutline.Python

variable {grammar : Parse Content} {level : Nat} {tail : List Note} {line : Line} {head : Head}
  {role : Role} {rest : List Line} {taken : Nat}

/-- Without lines there are no statements. -/
@[simp] theorem statements_nil : statements grammar level tail [] = some [] := by
  rw [statements]

/-- The statements on lines are those that start on the first line and those below what they take. -/
theorem statements_cons_eq_some {nodes : List Node} :
    statements grammar level tail (line :: rest) = some nodes ↔
      ∃ found taken later, statement grammar level tail line rest = some (found, taken) ∧
        statements grammar level tail (rest.drop taken) = some later ∧
        nodes = Line.joins line.notes ++ found ++ later := by
  rw [statements]
  constructor
  · intro same
    obtain ⟨⟨found, taken⟩, first, same⟩ := Option.bind_eq_some_iff.mp same
    obtain ⟨later, behind, same⟩ := Option.bind_eq_some_iff.mp same
    cases same
    exact ⟨found, taken, later, first, behind, rfl⟩
  · rintro ⟨found, taken, later, first, behind, rfl⟩
    simp [first, behind]

/-- A line holds statements without a body, or the decorators of a definition below, or a header. -/
theorem statement_eq_some {nodes : List Node} :
    statement grammar level tail line rest = some (nodes, taken) ↔
      (line.read grammar = some (.simple nodes) ∧ taken = 0) ∨
      (∃ applied below, line.read grammar = some (.decorator applied) ∧
        decorated level tail rest = some (below, taken) ∧
        nodes = [.mk .decoratedDefinition .part line.start
          ((below.getLast?.map Node.stop).getD line.stop) (applied ++ below)]) ∨
      ∃ head node, line.read grammar = some (.header head) ∧
        compound level tail line head .part rest = some (node, taken) ∧ nodes = [node] := by
  rw [statement]
  constructor
  · intro same
    obtain ⟨content, read, same⟩ := Option.bind_eq_some_iff.mp same
    cases content with
    | simple found =>
      cases same
      exact .inl ⟨read, rfl⟩
    | decorator applied =>
      obtain ⟨⟨below, count⟩, run, same⟩ := Option.bind_eq_some_iff.mp same
      cases same
      exact .inr (.inl ⟨applied, below, read, run, rfl⟩)
    | header head =>
      obtain ⟨⟨node, count⟩, run, same⟩ := Option.bind_eq_some_iff.mp same
      cases same
      exact .inr (.inr ⟨head, node, read, run, rfl⟩)
  · rintro (⟨read, rfl⟩ | ⟨applied, below, read, run, rfl⟩ | ⟨head, node, read, run, rfl⟩)
    · simp [read]
    · simp [read, run]
    · simp [read, run]

/-- Nothing can be decorated without a line. -/
@[simp] theorem decorated_nil : decorated level tail [] = none := by
  rw [decorated]

/-- Below a decorator stands another one, or the definition of a function or a class. -/
theorem decorated_cons_eq_some {nodes : List Node} :
    decorated level tail (line :: rest) = some (nodes, taken) ↔
      (∃ applied below count, line.read lineContent = some (.decorator applied) ∧
        decorated level tail rest = some (below, count) ∧
        nodes = applied ++ below ∧ taken = count + 1) ∨
      ∃ head node count, line.read lineContent = some (.header head) ∧
        (head.kind = .functionDefinition ∨ head.kind = .classDefinition) ∧
        compound level tail line head .definition rest = some (node, count) ∧
        nodes = [node] ∧ taken = count + 1 := by
  rw [decorated]
  constructor
  · intro same
    obtain ⟨content, read, same⟩ := Option.bind_eq_some_iff.mp same
    cases content with
    | simple found => cases same
    | decorator applied =>
      obtain ⟨⟨below, count⟩, run, same⟩ := Option.bind_eq_some_iff.mp same
      cases same
      exact .inl ⟨applied, below, count, read, run, rfl, rfl⟩
    | header head =>
      simp only at same
      split at same
      · rename_i defines
        obtain ⟨⟨node, count⟩, run, same⟩ := Option.bind_eq_some_iff.mp same
        cases same
        exact .inr ⟨head, node, count, read, defines, run, rfl, rfl⟩
      · cases same
  · rintro (⟨applied, below, count, read, run, rfl, rfl⟩ | ⟨head, node, count, read, defines, run, rfl, rfl⟩)
    · simp [read, run]
    · simp [read, defines, run]

/-- The statement of a header has a body and the clauses below it. -/
theorem compound_eq_some {node : Node} :
    compound level tail line head role rest = some (node, taken) ↔
      ∃ body count later more, suite level tail line head rest = some (body, count) ∧
        clauses head.stage level tail (rest.drop count) = some (later, more) ∧
        taken = count + more ∧
        node = .mk head.kind role line.start
          (((body :: later).getLast?.map Node.stop).getD line.stop) (head.parts ++ body :: later) := by
  rw [compound]
  constructor
  · intro same
    obtain ⟨⟨body, count⟩, run, same⟩ := Option.bind_eq_some_iff.mp same
    obtain ⟨⟨later, more⟩, follow, same⟩ := Option.bind_eq_some_iff.mp same
    cases same
    exact ⟨body, count, later, more, run, follow, rfl, rfl⟩
  · rintro ⟨body, count, later, more, run, follow, rfl, rfl⟩
    simp [run, follow]

/-- A body stands on the line of its header, or is empty, or holds the lines that are indented
further. -/
theorem suite_eq_some {body : Node} :
    suite level tail line head rest = some (body, taken) ↔
      (∃ block, head.body = some block ∧ body = block.upTo line.stop ∧ taken = 0) ∨
      (head.body = none ∧ bodyLines level rest = [] ∧ taken = 0 ∧
        body = .mk .block .body line.stop line.stop []) ∨
      ∃ first later children, head.body = none ∧ bodyLines level rest = first :: later ∧
        statements (if head.holdsCases then caseContent else lineContent) first.margin
          (notesBehind tail (rest.drop taken)) ({ first with notes := [] } :: later) = some children ∧
        taken = later.length + 1 ∧
        body = .mk .block .body ((children.head?.map Node.start).getD line.stop)
          (blockStop first.margin ((first :: later).getLast (by simp))
            (notesBehind tail (rest.drop taken))) children := by
  rw [suite]
  constructor
  · intro same
    split at same
    · rename_i block given
      cases same
      exact .inl ⟨block, given, rfl, rfl⟩
    · rename_i given
      split at same
      · rename_i empty
        cases same
        exact .inr (.inl ⟨given, empty, rfl, rfl⟩)
      · rename_i first later lines
        obtain ⟨children, run, same⟩ := Option.bind_eq_some_iff.mp same
        cases same
        exact .inr (.inr ⟨first, later, children, given, lines, run, rfl, rfl⟩)
  · rintro (⟨block, given, rfl, rfl⟩ | ⟨given, empty, rfl, rfl⟩ |
      ⟨first, later, children, given, lines, run, rfl, rfl⟩)
    · split
      · rename_i other same
        cases given.symm.trans same
        rfl
      · rename_i missing
        cases given.symm.trans missing
    · split
      · rename_i missing
        cases given.symm.trans missing
      · split
        · rfl
        · rename_i same
          cases empty.symm.trans same
    · split
      · rename_i missing
        cases given.symm.trans missing
      · split
        · rename_i same
          cases lines.symm.trans same
        · rename_i same
          cases lines.symm.trans same
          simp only [List.length_cons, run]
          rfl

/-- Clauses may be missing where the statement may end. -/
theorem clauses_nil_eq_some {stage : Stage} {nodes : List Node} :
    clauses stage level tail [] = some (nodes, taken) ↔
      stage.mayEnd = true ∧ nodes = [] ∧ taken = 0 := by
  rw [clauses]
  cases stage.mayEnd <;> simp [eq_comm]

/-- A line starts a clause when its first word may follow, and else the statement must end before
it. -/
theorem clauses_cons_eq_some {stage : Stage} {nodes : List Node} :
    clauses stage level tail (line :: rest) = some (nodes, taken) ↔
      (stage.follow line.firstSymbol.text = none ∧ stage.mayEnd = true ∧ nodes = [] ∧ taken = 0) ∨
      ∃ next head body count later more, stage.follow line.firstSymbol.text = some next ∧
        line.read (clauseContent line.firstSymbol.text) = some (.header head) ∧
        suite level tail line head rest = some (body, count) ∧
        clauses next level tail (rest.drop count) = some (later, more) ∧
        nodes = .mk .clause .part line.start body.stop (head.parts ++ [body]) :: later ∧
        taken = count + more + 1 := by
  rw [clauses]
  cases follow : stage.follow line.firstSymbol.text with
  | none => cases stage.mayEnd <;> simp [eq_comm]
  | some next =>
    simp only [reduceCtorEq, false_and, false_or, Option.some.injEq, exists_and_left,
      exists_eq_left']
    constructor
    · intro same
      obtain ⟨content, read, same⟩ := Option.bind_eq_some_iff.mp same
      cases content with
      | simple found => cases same
      | decorator applied => cases same
      | header head =>
        obtain ⟨⟨body, count⟩, run, same⟩ := Option.bind_eq_some_iff.mp same
        obtain ⟨⟨later, more⟩, behind, same⟩ := Option.bind_eq_some_iff.mp same
        cases same
        exact ⟨head, read, body, count, run, later, more, behind, rfl, rfl⟩
    · rintro ⟨head, read, body, count, run, later, more, behind, rfl, rfl⟩
      simp [read, run, behind]

end SourceOutline.Python
