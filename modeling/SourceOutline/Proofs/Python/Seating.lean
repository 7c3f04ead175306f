import SourceOutline.Proofs.Python.Reparse
import SourceOutline.Proofs.Python.Sitting

/-! Where the statements of blocks start: on the tokens of lines, and the first one where its line starts. -/

namespace SourceOutline.Python

/-- What a grammar finds on a line is made of what is bare, its statements start with tokens, and no header makes a
block. -/
def ReadsSeated (grammar : Parse Content) : Prop :=
  ∀ line : Line, line.Begins → ∀ content, line.read grammar = some content →
    content.Bare ∧ content.Sits line.tokens ∧ ∀ head, content = .header head → head.kind ≠ .block

/-- The lines of blocks and modules are such. -/
theorem readsSeated_lineContent : ReadsSeated lineContent := by
  intro line begins content read
  refine ⟨Line.read_bare bare_lineContent read, begins.read_sits (fun _ => lineContent_sits) read, ?_⟩
  rintro head rfl block
  rcases Line.read_isSound read with kind | ⟨_, kind | kind⟩ <;> rw [kind] at block <;> cases block

/-- The lines of clauses are such. -/
theorem readsSeated_of_clause {grammar : Parse Content} (bare : grammar.Finds Content.Bare)
    (sits : ∀ numbered, Parse.Keeps numbered grammar (Content.Sits numbered))
    (clause : grammar.Finds fun content => ∃ head, content = .header head ∧ head.kind = .clause) :
    ReadsSeated grammar := by
  intro line begins content read
  refine ⟨Line.read_bare bare read, begins.read_sits sits read, ?_⟩
  rintro head rfl block
  obtain ⟨⟨parsed, moved⟩, run, same⟩ := Option.map_eq_some_iff.mp read
  obtain ⟨found, rfl, kind⟩ := clause _ _ _ run
  cases same
  exact absurd (kind.symm.trans block) (by decide)

/-- The lines that start with the word of a clause are such. -/
theorem readsSeated_clauseContent (word : String) : ReadsSeated (clauseContent word) := by
  refine readsSeated_of_clause (bare_clauseContent word) (fun _ => clauseContent_sits word) ?_
  unfold clauseContent
  split <;> exact finds_clause

/-- The lines of a body are such. -/
theorem readsSeated_ite (cases : Bool) : ReadsSeated (if cases then caseContent else lineContent) := by
  cases cases
  · exact readsSeated_lineContent
  · exact readsSeated_of_clause bare_caseContent (fun _ => header_sits caseParts_spec) finds_clause

/-- A node whose blocks hold statements that start at certain places, below headers that start at certain places. -/
inductive Node.Seated (seat top : Mark → Prop) : Node → Prop where
  /-- A block in the node makes it a header, and holds statements; the same is true of all parts. -/
  | mk {node : Node} (header : ∀ block ∈ node.children, block.kind = .block →
      top node.start ∧ ∀ statement ∈ block.children, seat statement.start)
    (inside : ∀ part ∈ node.children, part.Seated seat top) : node.Seated seat top

/-- The tokens of a line start at places for statements, and the line at one for a header, below comments alone. -/
structure Line.Seats (seat top : Mark → Prop) (line : Line) : Prop where
  /-- The notes above the line are comments. -/
  notes : ∀ note ∈ line.notes, note.token.symbol = .comment
  /-- The tokens start at places for statements. -/
  tokens : ∀ token ∈ line.tokens, token.isWritten = true → seat token.start
  /-- The line starts at a place for a header. -/
  start : top line.start
  /-- It starts with a token that is written. -/
  begins : line.Begins

section

variable {seat top : Mark → Prop}

/-- A bare node is no block. -/
theorem Node.Bare.kind_ne_block {node : Node} (bare : node.Bare) : node.kind ≠ .block := fun block => by
  have plain := bare.plain
  rw [block] at plain
  cases plain

/-- Bare nodes hold no blocks. -/
theorem Node.Bare.seated {node : Node} (bare : node.Bare) : node.Seated seat top := by
  induction bare with
  | mk _ _ parts ih => exact .mk (fun block member kind => absurd kind (parts block member).kind_ne_block) ih

/-- Nodes that hold such blocks and are none. -/
def AllLaid (seat top : Mark → Prop) (nodes : List Node) : Prop :=
  ∀ node ∈ nodes, node.kind ≠ .block ∧ node.Seated seat top

/-- A part of a header is no block and holds none. -/
theorem AllParts.laid {nodes : List Node} (parts : AllParts nodes) : AllLaid seat top nodes := by
  intro node member
  obtain ⟨_, _, part⟩ := parts node member
  refine ⟨fun block => ?_, .mk (fun block inside kind => absurd kind (part.parts block inside).kind_ne_block)
    fun inner inside => (part.parts inner inside).seated⟩
  have plain := part.plain
  rw [block] at plain
  cases plain

/-- A node made of nodes that are no blocks. -/
theorem AllLaid.seated {kind : Kind} {role : Role} {start stop : Mark} {nodes : List Node}
    (laid : AllLaid seat top nodes) : (Node.mk kind role start stop nodes).Seated seat top :=
  .mk (fun block member isBlock => absurd isBlock (laid block member).1) fun part member => (laid part member).2

/-- A header with a body of statements that start at such places. -/
theorem seated_of_body {kind : Kind} {role : Role} {start stop : Mark} {front back : List Node} {body : Node}
    (starts : top start) (first : AllLaid seat top front) (later : AllLaid seat top back)
    (seated : body.Seated seat top) (sits : ∀ statement ∈ body.children, seat statement.start) :
    (Node.mk kind role start stop (front ++ body :: back)).Seated seat top := by
  refine .mk (fun block member isBlock => ⟨starts, ?_⟩) fun part member => ?_
  · rcases List.mem_append.mp member with above | among
    · exact absurd isBlock (first block above).1
    · rcases List.mem_cons.mp among with rfl | behind
      · exact sits
      · exact absurd isBlock (later block behind).1
  · rcases List.mem_append.mp member with above | among
    · exact (first part above).2
    · rcases List.mem_cons.mp among with rfl | behind
      · exact seated
      · exact (later part behind).2

/-- Statements that start at places for them, none of which is a block, and all whose blocks hold such. -/
def AllSeated (seat top : Mark → Prop) (nodes : List Node) : Prop :=
  ∀ node ∈ nodes, node.kind ≠ .block ∧ seat node.start ∧ node.Seated seat top

/-- A line starts at a place for a statement. -/
theorem Line.Seats.here {line : Line} (seats : line.Seats seat top) : seat line.start := by
  obtain ⟨token, rest, tokens, written⟩ := seats.begins.first
  have first := seats.tokens token (by simp [tokens]) written
  rw [Line.start, tokens]
  exact first

/-- Statements are no blocks. -/
theorem AllSeated.laid {nodes : List Node} (all : AllSeated seat top nodes) : AllLaid seat top nodes :=
  fun node member => ⟨(all node member).1, (all node member).2.2⟩

mutual

/-- The statements on lines at such places start at such places. -/
theorem statements_seated {grammar : Parse Content} {level : Nat} {tail : List Note} {lines : List Line}
    {nodes : List Node} (reads : ReadsSeated grammar) (seats : ∀ line ∈ lines, line.Seats seat top)
    (found : statements grammar level tail lines = some nodes) : AllSeated seat top nodes := by
  cases lines with
  | nil =>
    rw [statements_nil] at found
    cases found
    exact fun node member => absurd member List.not_mem_nil
  | cons line rest =>
    obtain ⟨here, taken, later, run, further, rfl⟩ := statements_cons_eq_some.mp found
    obtain ⟨first, below⟩ := List.forall_mem_cons.mp seats
    have own := statement_seated reads first below run
    have behind := statements_seated reads (fun line member => below line (List.mem_of_mem_drop member)) further
    rw [joins_eq_nil first.notes, List.nil_append]
    exact List.forall_mem_append.mpr ⟨own, behind⟩
termination_by 4 * lines.length

/-- The statements that start on such a line start at such places. -/
theorem statement_seated {grammar : Parse Content} {level : Nat} {tail : List Note} {line : Line}
    {rest : List Line} {nodes : List Node} {taken : Nat} (reads : ReadsSeated grammar) (here : line.Seats seat top)
    (below : ∀ line ∈ rest, line.Seats seat top)
    (found : statement grammar level tail line rest = some (nodes, taken)) : AllSeated seat top nodes := by
  rcases statement_eq_some.mp found with ⟨read, rfl⟩ | ⟨applied, nodes, read, run, rfl⟩ |
    ⟨head, node, read, run, rfl⟩
  · obtain ⟨bare, sits, _⟩ := reads line here.begins _ read
    cases bare with
    | simple bare =>
      cases sits with
      | simple sits =>
        intro node member
        obtain ⟨token, among, written, start⟩ := sits node member
        exact ⟨(bare node member).kind_ne_block, start ▸ here.tokens token among written, (bare node member).seated⟩
  · obtain ⟨bare, _, _⟩ := reads line here.begins _ read
    cases bare with
    | decorator bare =>
      have all := List.forall_mem_append.mpr ⟨bare.allParts.laid, decorated_seated below run⟩
      exact List.forall_mem_singleton.mpr ⟨nofun, here.here, AllLaid.seated all⟩
  · obtain ⟨bare, sits, other⟩ := reads line here.begins _ read
    obtain ⟨_, _, _, _, _, _, _, isNode⟩ := compound_eq_some.mp run
    have seated := compound_seated here bare sits below run
    refine List.forall_mem_singleton.mpr ⟨?_, ?_, seated⟩
    · rw [isNode]
      exact other head rfl
    · rw [isNode]
      exact here.here
termination_by 4 * rest.length + 3

/-- What decorators are applied to holds such blocks. -/
theorem decorated_seated {level : Nat} {tail : List Note} {lines : List Line} {nodes : List Node} {taken : Nat}
    (seats : ∀ line ∈ lines, line.Seats seat top)
    (found : decorated level tail lines = some (nodes, taken)) : AllLaid seat top nodes := by
  cases lines with
  | nil =>
    rw [decorated_nil] at found
    cases found
  | cons line rest =>
    obtain ⟨here, below⟩ := List.forall_mem_cons.mp seats
    rcases decorated_cons_eq_some.mp found with ⟨applied, later, count, read, run, rfl, rfl⟩ |
      ⟨head, node, count, read, _, run, rfl, rfl⟩
    · obtain ⟨bare, _, _⟩ := readsSeated_lineContent line here.begins _ read
      cases bare with
      | decorator bare => exact List.forall_mem_append.mpr ⟨bare.allParts.laid, decorated_seated below run⟩
    · obtain ⟨bare, sits, other⟩ := readsSeated_lineContent line here.begins _ read
      obtain ⟨_, _, _, _, _, _, _, isNode⟩ := compound_eq_some.mp run
      refine List.forall_mem_singleton.mpr ⟨?_, compound_seated here bare sits below run⟩
      rw [isNode]
      exact other head rfl
termination_by 4 * lines.length + 2

/-- The statement of a header on such a line holds such blocks. -/
theorem compound_seated {level : Nat} {tail : List Note} {line : Line} {head : Head} {role : Role}
    {rest : List Line} {node : Node} {taken : Nat} (here : line.Seats seat top) (bare : (Content.header head).Bare)
    (sits : (Content.header head).Sits line.tokens) (below : ∀ line ∈ rest, line.Seats seat top)
    (found : compound level tail line head role rest = some (node, taken)) : node.Seated seat top := by
  obtain ⟨body, count, later, more, run, follow, rfl, rfl⟩ := compound_eq_some.mp found
  obtain ⟨seated, sitting⟩ := suite_seated here bare sits below run
  have clauses := clauses_seated (fun line member => below line (List.mem_of_mem_drop member)) follow
  cases bare with
  | header parts => exact seated_of_body here.start parts.laid clauses seated sitting
termination_by 4 * rest.length + 2

/-- The statements of the body of a header on such a line start at such places. -/
theorem suite_seated {level : Nat} {tail : List Note} {line : Line} {head : Head} {rest : List Line}
    {body : Node} {taken : Nat} (here : line.Seats seat top) (bare : (Content.header head).Bare)
    (sits : (Content.header head).Sits line.tokens) (below : ∀ line ∈ rest, line.Seats seat top)
    (found : suite level tail line head rest = some (body, taken)) :
    body.Seated seat top ∧ ∀ statement ∈ body.children, seat statement.start := by
  rcases suite_eq_some.mp found with ⟨block, held, rfl, rfl⟩ | ⟨_, _, rfl, rfl⟩ |
    ⟨first, later, children, _, lines, run, rfl, rfl⟩
  · cases bare with
    | header _ bodies =>
      cases sits with
      | header sitting =>
        obtain ⟨kind, role, start, stop, parts⟩ := block
        have bare : AllBare parts := (bodies _ held).children
        refine ⟨AllLaid.seated bare.allParts.laid, fun statement member => ?_⟩
        obtain ⟨token, among, written, start⟩ := sitting _ held statement member
        exact start ▸ here.tokens token among written
  · exact ⟨.mk nofun nofun, nofun⟩
  · have own := bodyLines_isPrefix level rest
    have fewer : later.length + 1 ≤ rest.length := by simpa [lines] using length_bodyLines_le level rest
    rw [lines] at own
    obtain ⟨first_seats, behind⟩ := List.forall_mem_cons.mp fun line member => below line (own.subset member)
    -- The notes above the first line are none of the body's.
    have bare : Line.Seats seat top { first with notes := [] } :=
      ⟨by simp, first_seats.tokens, first_seats.start, first_seats.begins.tokens, first_seats.begins.first⟩
    have all := statements_seated (readsSeated_ite head.holdsCases) (List.forall_mem_cons.mpr ⟨bare, behind⟩) run
    exact ⟨all.laid.seated, fun statement member => (all statement member).2.1⟩
termination_by 4 * rest.length + 1

/-- Clauses on such lines hold such blocks. -/
theorem clauses_seated {stage : Stage} {level : Nat} {tail : List Note} {lines : List Line} {nodes : List Node}
    {taken : Nat} (seats : ∀ line ∈ lines, line.Seats seat top)
    (found : clauses stage level tail lines = some (nodes, taken)) : AllLaid seat top nodes := by
  cases lines with
  | nil =>
    obtain ⟨_, rfl, _⟩ := clauses_nil_eq_some.mp found
    exact fun node member => absurd member List.not_mem_nil
  | cons line rest =>
    rcases clauses_cons_eq_some.mp found with ⟨_, _, rfl, rfl⟩ |
      ⟨next, head, body, count, later, more, follow, read, run, further, rfl, rfl⟩
    · exact fun node member => absurd member List.not_mem_nil
    · obtain ⟨here, below⟩ := List.forall_mem_cons.mp seats
      obtain ⟨bare, sits, _⟩ := readsSeated_clauseContent _ line here.begins _ read
      obtain ⟨seated, sitting⟩ := suite_seated here bare sits below run
      have behind := clauses_seated (fun line member => below line (List.mem_of_mem_drop member)) further
      cases bare with
      | header parts =>
        exact List.forall_mem_cons.mpr ⟨⟨nofun, seated_of_body here.start parts.laid nofun seated sitting⟩, behind⟩
termination_by 4 * lines.length + 1

end

end

/-- What the lines of a body hold starts where the first of them does. -/
theorem statements_lead {level : Nat} {tail : List Note} {line : Line} {rest : List Line} {nodes : List Node}
    (cases : Bool) (begins : line.Begins) (alone : line.notes = [])
    (found : statements (if cases then caseContent else lineContent) level tail (line :: rest) = some nodes) :
    ∃ first later, nodes = first :: later ∧ first.Opens line.start := by
  obtain ⟨here, taken, later, run, _, rfl⟩ := statements_cons_eq_some.mp found
  obtain ⟨first, others, rfl, opens⟩ : ∃ first others, here = first :: others ∧ first.Opens line.start := by
    rcases statement_eq_some.mp run with ⟨read, _⟩ | ⟨applied, below, read, _, rfl⟩ |
      ⟨head, node, read, built, rfl⟩
    · cases cases with
      | false => exact begins.read_leadsAt read
      | true =>
        obtain ⟨⟨parsed, moved⟩, run, same⟩ := Option.map_eq_some_iff.mp read
        obtain ⟨head, rfl, _⟩ := @finds_clause .closed caseParts _ _ _ run
        cases same
    · exact ⟨_, [], rfl, rfl, rfl, rfl⟩
    · have spoken : head.kind ≠ .asyncKeyword ∧ head.kind ≠ .comment := by
        cases cases with
        | false =>
          rcases Line.read_isSound read with kind | ⟨_, kind | kind⟩ <;> rw [kind] <;> decide
        | true =>
          obtain ⟨⟨parsed, moved⟩, run, same⟩ := Option.map_eq_some_iff.mp read
          obtain ⟨found, rfl, kind⟩ := @finds_clause .closed caseParts _ _ _ run
          cases same
          show found.kind ≠ _ ∧ found.kind ≠ _
          rw [kind]
          decide
      obtain ⟨_, _, _, _, _, _, _, rfl⟩ := compound_eq_some.mp built
      exact ⟨_, [], rfl, rfl, by simpa [Node.isNamed, Node.kind] using spoken.1,
        by simpa [Node.isComment, Node.kind] using spoken.2⟩
  refine ⟨first, others ++ later, ?_, opens⟩
  rw [alone]
  rfl

end SourceOutline.Python
