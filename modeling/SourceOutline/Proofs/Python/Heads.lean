import SourceOutline.Python.Extract

/-! What the grammar of a line finds: only headers define functions and classes. -/

namespace SourceOutline.Python

/-- A node of the kind is a definition. -/
def Kind.defines (kind : Kind) : Bool :=
  -- The definition below decorators counts together with them.
  kind == .functionDefinition || kind == .classDefinition || kind == .decoratedDefinition

/-- Everything else has no definition in it. -/
theorem defines_of_definitionOf {statement definition : Node}
    (found : definitionOf statement = some definition) : statement.kind.defines = true := by
  unfold definitionOf at found
  split at found
  · rename_i kind
    rw [kind]
    rfl
  · rename_i kind
    rw [kind]
    rfl
  · rename_i kind
    rw [kind]
    rfl
  · cases found

/-- Whatever a parser finds is good. -/
def Parse.Finds {α : Type} (parser : Parse α) (good : α → Prop) : Prop :=
  ∀ cursor value moved, parser cursor = some (value, moved) → good value

namespace Parse

variable {α β : Type} {good : α → Prop} {fine : β → Prop}

/-- A parser behind another one finds what it finds. -/
theorem Finds.behind (first : Parse β) {second : β → Parse α}
    (finds : ∀ value, (second value).Finds good) : (first >>= second).Finds good := by
  intro cursor value moved found
  obtain ⟨⟨between, settled⟩, _, later⟩ := Option.bind_eq_some_iff.mp found
  exact finds between settled value moved later

/-- A parser behind another one may use what that one finds. -/
theorem Finds.bind {first : Parse β} (given : first.Finds fine) {second : β → Parse α}
    (finds : ∀ value, fine value → (second value).Finds good) : (first >>= second).Finds good := by
  intro cursor value moved found
  obtain ⟨⟨between, settled⟩, run, later⟩ := Option.bind_eq_some_iff.mp found
  exact finds between (given cursor between settled run) settled value moved later

/-- A given value is found. -/
theorem Finds.pure {value : α} (holds : good value) : (pure value : Parse α).Finds good := by
  intro cursor other moved found
  cases found
  exact holds

/-- Either of two parsers finds what is good. -/
theorem Finds.ite {condition : Prop} [Decidable condition] {first second : Parse α}
    (finds : first.Finds good) (finds' : second.Finds good) :
    (if condition then first else second).Finds good := by
  split
  · exact finds
  · exact finds'

/-- What is tried is good when it is found. -/
theorem Finds.attempt {parser : Parse α} (finds : parser.Finds good) :
    (attempt parser).Finds fun found => ∀ value, found = some value → good value := by
  intro cursor found moved run value same
  unfold Parse.attempt at run
  split at run
  · rename_i other further tried
    cases run
    cases same
    exact finds cursor _ _ tried
  · cases run
    cases same

/-- What is found again and again is good each time. -/
theorem Finds.repeatFrom {condition : Parse Bool} {parser : Parse α} (finds : parser.Finds good)
    {done : List α} (before : ∀ value ∈ done, good value) (fuel : Nat) :
    Parse.Finds (repeatFrom condition parser done fuel) fun found => ∀ value ∈ found, good value := by
  induction fuel generalizing done with
  | zero =>
    intro cursor found moved run
    cases run
  | succ fuel ih =>
    intro cursor found moved run
    rw [Parse.repeatFrom] at run
    split at run
    · cases run
    · cases run
      simpa using before
    · split at run
      · cases run
      · rename_i value further here
        refine ih (fun other member => ?_) _ _ _ run
        rcases List.mem_cons.mp member with rfl | old
        · exact finds _ _ _ here
        · exact before other old

/-- What is found as long as a condition holds is good each time. -/
theorem Finds.repeatWhile (condition : Parse Bool) {parser : Parse α} (finds : parser.Finds good) :
    (repeatWhile condition parser).Finds fun found => ∀ value ∈ found, good value := by
  intro cursor found moved run
  exact Finds.repeatFrom finds (by simp) _ _ _ _ run

/-- A node has the kind that is given to it. -/
theorem finds_node (kind : Kind) (role : Role) (children : Parse (List Node)) :
    (node kind role children).Finds fun node => node.kind = kind :=
  .behind here fun _ => .behind children fun _ => .behind behind fun _ => .pure rfl

end Parse

open Parse

/-- A node of a kind that defines nothing is no definition. -/
theorem finds_plain {kind : Kind} (plain : kind.defines = false) {role : Role}
    {children : Parse (List Node)} :
    (node kind role children).Finds fun node => node.kind.defines = false := by
  intro cursor found moved run
  rw [finds_node kind role children cursor found moved run]
  exact plain

/-- Comments and joins make no definition of a node. -/
theorem finds_withTrivia {parser : Parse Node}
    (finds : parser.Finds fun node => node.kind.defines = false) :
    parser.withTrivia.Finds fun node => node.kind.defines = false := by
  refine .bind finds fun node plain => .behind get fun _ => .pure ?_
  cases node with
  | mk kind role start stop children => exact plain

/-- No statement without a body is a definition. -/
theorem finds_simpleStatement : simpleStatement.Finds fun node => node.kind.defines = false := by
  have plain : (node .expressionStatement .part expressions).withTrivia.Finds
      fun node => node.kind.defines = false := finds_withTrivia (finds_plain rfl)
  refine .behind next fun symbol => ?_
  split
  -- Most words that a statement starts with decide its kind.
  all_goals first | exact finds_plain rfl | skip
  · refine .behind seesPrint fun old => ?_
    split
    · refine .bind (.attempt (finds_plain rfl)) fun found plains => ?_
      split
      · exact .pure (plains _ rfl)
      · exact plain
    · exact plain
  · refine .behind afterNext fun second => ?_
    exact .ite (finds_plain rfl) plain
  · exact .behind afterNext fun second => .ite (finds_plain rfl) plain
  · exact plain

/-- No statement on a line without a body is a definition. -/
theorem finds_simpleLine : simpleLine.Finds fun found => ∀ node ∈ found, node.kind.defines = false := by
  refine .bind finds_simpleStatement fun first plain => ?_
  refine .bind (.repeatWhile _ finds_simpleStatement) fun later plains => ?_
  refine .behind _ fun _ => .pure fun node member => ?_
  rcases List.mem_cons.mp member with rfl | inside
  · exact plain
  · exact plains node inside

/-- What a line can hold: statements that define nothing, decorators, headers of definitions without
further clauses, and headers of other statements. -/
def Content.IsSound : Content → Prop
  | .simple found => ∀ node ∈ found, node.kind.defines = false
  | .decorator _ => True
  | .header head => head.kind = .statement ∨
      head.stage = .closed ∧ (head.kind = .functionDefinition ∨ head.kind = .classDefinition)

/-- A header has the kind and the stage that are given to it. -/
theorem finds_header {kind : Kind} {stage : Stage} {parts : Parse (List Node)}
    (sound : kind = .statement ∨
      stage = .closed ∧ (kind = .functionDefinition ∨ kind = .classDefinition)) :
    (header kind stage parts).Finds Content.IsSound :=
  .behind parts fun _ => .behind lineBody fun _ => .pure sound

/-- Statements without a body define nothing. -/
theorem finds_simpleContent : simpleContent.Finds Content.IsSound :=
  .bind finds_simpleLine fun _ plain => .pure plain

/-- The lines of blocks and modules hold what a line can hold. -/
theorem finds_lineContent : lineContent.Finds Content.IsSound := by
  refine .behind next fun symbol => ?_
  split
  all_goals first | exact finds_header (.inl rfl) | skip
  · exact finds_header (.inr ⟨rfl, .inl rfl⟩)
  · exact finds_header (.inr ⟨rfl, .inr rfl⟩)
  · exact .behind _ fun _ => .behind _ fun _ => .behind _ fun _ => .pure trivial
  · refine .behind afterNext fun second => ?_
    split
    · exact finds_header (.inr ⟨rfl, .inl rfl⟩)
    · exact finds_header (.inl rfl)
    · exact finds_header (.inl rfl)
    · exact finds_simpleContent
  · have ofMatch : matchContent.Finds Content.IsSound :=
      .behind _ fun _ => .behind _ fun _ => .behind _ fun _ => .behind _ fun _ => .pure (.inl rfl)
    refine .bind (.attempt ofMatch) fun found sound => ?_
    split
    · exact .pure (sound _ rfl)
    · exact finds_simpleContent
  · exact finds_simpleContent

/-- Other places make no definition of a node. -/
@[simp] theorem kind_relocate (move : Mark → Mark) (node : Node) :
    (node.relocate move).kind = node.kind := by
  cases node with
  | mk kind role start stop children =>
    rw [Node.relocate]
    rfl

/-- Every relocated node was one of the nodes. -/
theorem exists_of_mem_relocateAll {move : Mark → Mark} {nodes : List Node} {node : Node}
    (member : node ∈ Node.relocateAll move nodes) : ∃ old ∈ nodes, node = old.relocate move := by
  induction nodes with
  | nil => cases member
  | cons first rest ih =>
    rw [Node.relocateAll] at member
    rcases List.mem_cons.mp member with rfl | inside
    · exact ⟨first, List.mem_cons_self, rfl⟩
    · obtain ⟨old, found, rfl⟩ := ih inside
      exact ⟨old, List.mem_cons_of_mem first found, rfl⟩

/-- A line of a block or a module holds what a line can hold. -/
theorem Line.read_isSound {line : Line} {content : Content}
    (read : line.read lineContent = some content) : content.IsSound := by
  obtain ⟨⟨parsed, moved⟩, run, rfl⟩ := Option.map_eq_some_iff.mp read
  have sound := finds_lineContent _ _ _ run
  cases parsed with
  | simple found =>
    intro node member
    obtain ⟨old, inside, rfl⟩ := exists_of_mem_relocateAll member
    rw [kind_relocate]
    exact sound old inside
  | decorator applied => trivial
  | header head => exact sound

end SourceOutline.Python
