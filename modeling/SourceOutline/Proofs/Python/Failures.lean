import SourceOutline.Python.Extract

/-! Sources of Python fail on nothing but themselves. -/

namespace SourceOutline

/-- The failure is one of the source itself. -/
def Failure.IsSyntax (failure : Failure) : Prop :=
  ∃ line column text, failure = .syntaxFailure line column text

/-- A check fails on the source itself, if at all. -/
def FailsOnSyntax {α : Type} (result : Except Failure α) : Prop :=
  ∀ failure, result = .error failure → failure.IsSyntax

namespace FailsOnSyntax

/-- What succeeds does not fail. -/
theorem ok {α : Type} (value : α) : FailsOnSyntax (.ok value) := by
  rintro failure ⟨⟩

/-- What fails on the source does so. -/
theorem error {α : Type} {failure : Failure} (isSyntax : failure.IsSyntax) :
    FailsOnSyntax (.error failure : Except Failure α) := by
  rintro _ ⟨⟩
  exact isSyntax

/-- One check follows the other. -/
theorem bind {α β : Type} {first : Except Failure α} {next : α → Except Failure β}
    (firstFails : FailsOnSyntax first) (nextFails : ∀ value, FailsOnSyntax (next value)) :
    FailsOnSyntax (first >>= next) := by
  cases first with
  | ok value => exact nextFails value
  | error failure => exact error (firstFails failure rfl)

end FailsOnSyntax

namespace Python

/-- A failure at a node is one of the source. -/
theorem isSyntax_failureAt (node : Node) (message : String) : (failureAt node message).IsSyntax :=
  ⟨_, _, _, rfl⟩

/-- A failure of indentation is one of the source. -/
theorem isSyntax_indentFailure (rows : Rows) (statement : Node) :
    (indentFailure rows statement).IsSyntax := by
  rw [indentFailure]
  split
  · split <;> exact isSyntax_failureAt _ _
  · exact isSyntax_failureAt _ _

/-- Columns are a matter of the source. -/
theorem failsOnSyntax_checkColumns (rows : Rows) (column : Nat) (statements : List Node) :
    FailsOnSyntax (checkColumns rows column statements) := by
  rw [checkColumns]
  split
  · exact .error (isSyntax_indentFailure _ _)
  · exact .ok ()

/-- Suites are a matter of the source. -/
theorem failsOnSyntax_checkSuite (rows : Rows) (suite : Node) (expected : Option Nat) :
    FailsOnSyntax (checkSuite rows suite expected) := by
  rw [checkSuite]
  split
  · exact failsOnSyntax_checkColumns _ _ _
  · exact .ok ()

/-- Blocks are a matter of the source. -/
theorem failsOnSyntax_checkBlock (rows : Rows) (headerRow : Nat) (block : Node) :
    FailsOnSyntax (checkBlock rows headerRow block) := by
  rw [checkBlock]
  split
  · exact .error (isSyntax_failureAt _ _)
  · split
    · exact .ok ()
    · dsimp only
      split
      · exact .error (isSyntax_failureAt _ _)
      · exact failsOnSyntax_checkSuite _ _ _

/-- Defaults are a matter of the source. -/
theorem failsOnSyntax_checkDefaults (parameters : Node) : FailsOnSyntax (checkDefaults parameters) := by
  rw [checkDefaults]
  split
  · exact .error (isSyntax_failureAt _ _)
  · exact .ok ()

/-- What concerns a node is a matter of the source. -/
theorem failsOnSyntax_checkNode (rows : Rows) (headerRow : Option Nat) (node : Node) :
    FailsOnSyntax (checkNode rows headerRow node) := by
  unfold checkNode
  split
  · exact .error (isSyntax_failureAt _ _)
  · exact .error (isSyntax_failureAt _ _)
  · exact failsOnSyntax_checkBlock _ _ _
  · exact failsOnSyntax_checkDefaults _
  · exact failsOnSyntax_checkDefaults _
  · exact .ok ()

mutual

/-- What concerns a tree is a matter of the source. -/
theorem failsOnSyntax_checkTree (rows : Rows) (headerRow : Option Nat) :
    ∀ node, FailsOnSyntax (checkTree rows headerRow node)
  | .mk kind role start stop children => by
    rw [checkTree]
    exact (failsOnSyntax_checkNode _ _ _).bind fun _ => failsOnSyntax_checkTrees rows start.row children

/-- What concerns a list of trees is a matter of the source. -/
theorem failsOnSyntax_checkTrees (rows : Rows) (headerRow : Nat) :
    ∀ nodes, FailsOnSyntax (checkTrees rows headerRow nodes)
  | [] => by
    rw [checkTrees]
    exact .ok ()
  | node :: rest => by
    rw [checkTrees]
    split
    · exact (failsOnSyntax_checkTree rows (some headerRow) node).bind fun _ =>
        failsOnSyntax_checkTrees rows headerRow rest
    · exact failsOnSyntax_checkTrees rows headerRow rest

end

/-- A source of Python has an outline or fails on itself. -/
theorem failsOnSyntax_outline (source : List Char) : FailsOnSyntax (outline source) := by
  rw [outline]
  cases parse source with
  | none => exact .error ⟨_, _, _, rfl⟩
  | some tree =>
    have checked : FailsOnSyntax (checkStructure source tree) :=
      (failsOnSyntax_checkSuite _ tree _).bind fun _ => failsOnSyntax_checkTree _ none tree
    exact checked.bind fun _ => .ok _

end Python

end SourceOutline
