import SourceOutline.Proofs.Python.Margins
import SourceOutline.Proofs.Python.SpelledLines

/-! Every name and every quote of a tree is a token that stands in the source. -/

namespace SourceOutline.Python

/-- Nodes are relocated one by one. -/
theorem relocateAll_eq_map (move : Mark → Mark) (nodes : List Node) :
    Node.relocateAll move nodes = nodes.map (Node.relocate move) := by
  induction nodes with
  | nil => rfl
  | cons node rest ih => rw [Node.relocateAll, ih, List.map_cons]

/-- The parts of a relocated node are relocated. -/
theorem children_relocate (move : Mark → Mark) (node : Node) :
    (node.relocate move).children = node.children.map (Node.relocate move) := by
  cases node with
  | mk kind role start stop children => exact relocateAll_eq_map move children

/-- A relocated node keeps its role. -/
theorem role_relocate (move : Mark → Mark) (node : Node) : (node.relocate move).role = node.role := by
  cases node with
  | mk kind role start stop children => rfl

/-- A relocated node starts where the start has been moved to. -/
theorem start_relocate (move : Mark → Mark) (node : Node) :
    (node.relocate move).start = move node.start := by
  cases node with
  | mk kind role start stop children => rfl

/-- A relocated node ends where the end has been moved to. -/
theorem stop_relocate (move : Mark → Mark) (node : Node) : (node.relocate move).stop = move node.stop := by
  cases node with
  | mk kind role start stop children => rfl

/-- The first of some nodes in a role stays the first when they are relocated. -/
theorem find?_relocate (move : Mark → Mark) (role : Role) (nodes : List Node) :
    ((nodes.map (Node.relocate move)).find? fun child => child.role == role) =
      (nodes.find? fun child => child.role == role).map (Node.relocate move) := by
  rw [List.find?_map]
  congr 2
  funext child
  rw [Function.comp_apply, role_relocate]

/-- The named parts of a relocated node are relocated. -/
theorem namedChildren_relocate (move : Mark → Mark) (node : Node) :
    (node.relocate move).namedChildren = node.namedChildren.map (Node.relocate move) := by
  rw [Node.namedChildren, children_relocate, List.filter_map]
  congr 2
  funext child
  rw [Function.comp_apply, Node.isNamed, kind_relocate, Node.isNamed]

section

variable {given given' : List Token} {move : Mark → Mark}
  (encloses : ∀ start stop, Encloses given start stop → Encloses given' (move start) (move stop))
  (beside : ∀ mark, Beside given mark → Beside given' (move mark))

include encloses beside

/-- A spelled node stays spelled when its tokens are moved. -/
theorem Node.Spelled.relocate {node : Node} (spelled : node.Spelled given) :
    (node.relocate move).Spelled given' := by
  induction spelled with
  | @mk node formed parts ih =>
    refine .mk ⟨fun kind => ?_, fun kind => ?_, fun kind name found => ?_, fun kind name found => ?_,
      fun kind => ?_, fun kind => ?_, fun kind => ?_⟩ ?_
    · rw [kind_relocate] at kind
      rw [start_relocate, stop_relocate]
      exact encloses _ _ (formed.token kind)
    · rw [kind_relocate] at kind
      rw [start_relocate]
      exact beside _ (formed.starts kind)
    · rw [kind_relocate] at kind
      rw [Node.child?, children_relocate, find?_relocate] at found
      obtain ⟨old, first, rfl⟩ := Option.map_eq_some_iff.mp found
      rw [kind_relocate]
      exact formed.named kind old first
    · rw [kind_relocate] at kind
      rw [Node.child?, children_relocate, find?_relocate] at found
      obtain ⟨old, first, rfl⟩ := Option.map_eq_some_iff.mp found
      rw [start_relocate, stop_relocate]
      obtain ⟨starts, stops⟩ := formed.target kind old first
      exact ⟨beside _ starts, beside _ stops⟩
    · rw [kind_relocate] at kind
      have untyped := formed.untyped kind
      rw [Node.child?] at untyped
      rw [Node.child?, children_relocate, find?_relocate, untyped]
      rfl
    · rw [kind_relocate] at kind
      obtain ⟨first, opens, named⟩ := formed.typed kind
      refine ⟨first.relocate move, ?_, by rw [kind_relocate]; exact named⟩
      rw [namedChildren_relocate, List.head?_map, opens]
      rfl
    · rw [kind_relocate] at kind
      obtain ⟨name, found⟩ := formed.defaulted kind
      refine ⟨name.relocate move, ?_⟩
      rw [Node.child?] at found
      rw [Node.child?, children_relocate, find?_relocate, found]
      rfl
    · rw [children_relocate]
      intro part member
      obtain ⟨old, above, rfl⟩ := List.mem_map.mp member
      exact ih old above

/-- Spelled nodes stay spelled when their tokens are moved. -/
theorem AllSpelled.relocate {nodes : List Node} (spelled : AllSpelled given nodes) :
    AllSpelled given' (Node.relocateAll move nodes) := by
  rw [relocateAll_eq_map]
  intro node member
  obtain ⟨old, above, rfl⟩ := List.mem_map.mp member
  exact (spelled old above).relocate encloses beside

/-- What stands on a line stays spelled when its tokens are moved. -/
theorem Content.Spelled.relocate {content : Content} (spelled : content.Spelled given) :
    (content.relocate move).Spelled given' := by
  cases spelled with
  | simple spelled => exact .simple (spelled.relocate encloses beside)
  | decorator spelled => exact .decorator (spelled.relocate encloses beside)
  | @header head spelled =>
    refine .header ⟨spelled.parts.relocate encloses beside, fun body held => ?_, ?_⟩
    · obtain ⟨old, above, rfl⟩ := Option.map_eq_some_iff.mp held
      obtain ⟨plain, spelled⟩ := spelled.body old above
      exact ⟨by rw [kind_relocate]; exact plain, spelled.relocate encloses beside⟩
    · refine spelled.named.imp_right (And.imp_right fun ⟨name, found, isName⟩ => ?_)
      refine ⟨name.relocate move, ?_, by rw [kind_relocate]; exact isName⟩
      rw [relocateAll_eq_map, find?_relocate, found]
      rfl

end

/-- The tokens of the line with numbers in place of places. -/
def Line.writtenTokens (line : Line) : List Token := (line.tokens.map Token.symbol).mapIdx Line.numbered

/-- Behind the tokens of a line stands its end. -/
theorem Line.numberedTokens_eq (line : Line) :
    line.numberedTokens = line.writtenTokens ++ [Line.numbered line.tokens.length .newline] := by
  rw [Line.numberedTokens, List.mapIdx_append, Line.writtenTokens]
  simp

/-- A numbered token stands for the token of its number. -/
theorem Line.exists_of_mem_writtenTokens {line : Line} {token : Token} (member : token ∈ line.writtenTokens) :
    ∃ other ∈ line.tokens, other.symbol = token.symbol ∧ line.place token.start = other.start ∧
      line.place token.stop = other.stop := by
  obtain ⟨index, below, rfl⟩ := List.mem_iff_getElem.mp member
  have inside : index < line.tokens.length := by simpa [Line.writtenTokens] using below
  refine ⟨line.tokens[index], List.getElem_mem inside, ?_, ?_, ?_⟩
  · simp [Line.writtenTokens, Line.numbered]
  · simp [Line.writtenTokens, Line.numbered, Line.place, inside]
  · have half : (2 * index + 1) / 2 = index := by omega
    simp [Line.writtenTokens, Line.numbered, Line.place, half, inside]

/-- A line whose tokens are among the given ones and that starts with a written token. -/
structure Line.Fits (given : List Token) (line : Line) : Prop where
  /-- The tokens are among the given ones. -/
  tokens : ∀ token ∈ line.tokens, token ∈ given
  /-- The first token is a written one. -/
  first : ∃ token rest, line.tokens = token :: rest ∧ token.isWritten = true

section

variable {given : List Token} {line : Line} (fits : line.Fits given)

include fits

/-- The cursor starts on its line. -/
theorem Line.Fits.within :
    Cursor.Within line.writtenTokens { tokens := line.numberedTokens, limit := line.numberedTokens.length } := by
  obtain ⟨token, rest, tokens, written⟩ := fits.first
  refine ⟨⟨_, rfl, by rw [Line.numberedTokens_eq]⟩, fun _ => ?_⟩
  refine ⟨Line.numbered 0 token.symbol, ?_, written, .inl rfl⟩
  simp [Line.writtenTokens, tokens]

/-- What is read on a line is spelled with the given tokens. -/
theorem Line.Fits.read {grammar : Parse Content}
    (keeps : ∀ numbered, Parse.Keeps numbered grammar (Content.Spelled numbered)) {content : Content}
    (found : line.read grammar = some content) : content.Spelled given := by
  obtain ⟨⟨parsed, moved⟩, run, rfl⟩ := Option.map_eq_some_iff.mp found
  have spelled := (Parse.keeps_iff.mp (keeps line.writtenTokens) _ fits.within _ _ run).2
  refine spelled.relocate ?_ ?_
  · rintro start stop ⟨token, member, written, rfl, rfl⟩
    obtain ⟨other, above, symbol, starts, stops⟩ := Line.exists_of_mem_writtenTokens member
    refine ⟨other, fits.tokens other above, ?_, starts.symm, stops.symm⟩
    rw [Token.isWritten, symbol]
    exact written
  · rintro mark ⟨token, member, written, ends⟩
    obtain ⟨other, above, symbol, starts, stops⟩ := Line.exists_of_mem_writtenTokens member
    refine ⟨other, fits.tokens other above, by rw [Token.isWritten, symbol]; exact written, ?_⟩
    rcases ends with rfl | rfl
    · exact .inl starts
    · exact .inr stops

end

/-- Joins above a line are spelled. -/
theorem joins_spelled {given : List Token} (notes : List Note) : AllSpelled given (Line.joins notes) := by
  intro node member
  obtain ⟨token, _, rfl⟩ := List.mem_map.mp member
  exact triviaNode_spelled token

/-- A body that ends elsewhere is spelled. -/
theorem Node.Spelled.upTo {given : List Token} {node : Node} (plain : node.kind.isPlain = true)
    (spelled : node.Spelled given) (stop : Mark) : (node.upTo stop).Spelled given := by
  cases node with
  | mk kind role start other children => exact .of_parts plain spelled.children

/-- A statement is spelled when its header, its body and its clauses are, and it starts with a token. -/
theorem Head.Spelled.node {given : List Token} {head : Head} (spelled : head.Spelled given) {role : Role}
    {start stop : Mark} (starts : Beside given start) {parts : List Node} (others : AllSpelled given parts) :
    (Node.mk head.kind role start stop (head.parts ++ parts)).Spelled given := by
  have all := allSpelled_append.mpr ⟨spelled.parts, others⟩
  rcases spelled.named with plain | ⟨defines, name, found, isName⟩
  · exact .of_parts plain all
  · have first : (Node.mk head.kind role start stop (head.parts ++ parts)).child? .name = some name := by
      rw [Node.child?, Node.children, List.find?_append, found]
      rfl
    refine .mk ⟨fun kind => ?_, fun _ => starts, fun _ other same => ?_, fun kind => ?_, fun kind => ?_,
      fun kind => ?_, fun _ => ⟨name, first⟩⟩ all
    · rcases defines with defines | defines <;> simp [Node.kind, defines, Kind.isToken] at kind
    · obtain rfl : name = other := Option.some.inj (first.symm.trans same)
      exact isName
    all_goals rcases defines with defines | defines <;> simp [Node.kind, defines] at kind

/-- A definition below decorators is spelled when the decorators and the definition are, and it starts with
a token. -/
theorem decorated_node_spelled {given : List Token} {role : Role} {start stop : Mark}
    (starts : Beside given start) {parts : List Node} (all : AllSpelled given parts) :
    (Node.mk .decoratedDefinition role start stop parts).Spelled given := by
  refine .mk ⟨fun kind => ?_, fun _ => starts, fun kind => ?_, fun kind => ?_, fun kind => ?_, fun kind => ?_,
    fun kind => ?_⟩ all
  all_goals cases kind

/-- A line starts with a token. -/
theorem Line.Fits.beside_start {given : List Token} {line : Line} (fits : line.Fits given) :
    Beside given line.start := by
  obtain ⟨token, rest, tokens, written⟩ := fits.first
  refine ⟨token, fits.tokens token (by simp [tokens]), written, .inl ?_⟩
  rw [Line.start, tokens]
  rfl

section

variable {given : List Token}

/-- Lines fit when the first one and the others do. -/
def AllFit (given : List Token) (lines : List Line) : Prop := ∀ line ∈ lines, line.Fits given

/-- What is left of lines that fit fits. -/
theorem AllFit.drop {lines : List Line} (fit : AllFit given lines) (count : Nat) :
    AllFit given (lines.drop count) :=
  fun line member => fit line (List.mem_of_mem_drop member)

/-- The lines of a body are lines. -/
theorem AllFit.bodyLines {lines : List Line} (fit : AllFit given lines) (level : Nat) :
    AllFit given (bodyLines level lines) := by
  intro line member
  cases lines with
  | nil => exact absurd member List.not_mem_nil
  | cons first rest =>
    simp only [Python.bodyLines] at member
    split at member
    · exact absurd member List.not_mem_nil
    · rcases List.mem_cons.mp member with rfl | later
      · exact fit _ List.mem_cons_self
      · exact fit line (List.mem_cons_of_mem first ((List.takeWhile_sublist _).mem later))

/-- Whatever the tokens of a line are, what a grammar finds on it is spelled with them. -/
def Spells (grammar : Parse Content) : Prop :=
  ∀ given, Parse.Keeps given grammar (Content.Spelled given)

/-- What the lines of a body are read with finds what is spelled. -/
theorem spells_ite (cases : Bool) : Spells (if cases then caseContent else lineContent) := by
  cases cases
  · exact fun _ => lineContent_spec
  · exact fun _ => caseContent_spec

mutual

/-- The statements on lines are spelled. -/
theorem statements_spelled {grammar : Parse Content} {level : Nat} {tail : List Note} {lines : List Line}
    {nodes : List Node} (spells : Spells grammar) (fit : AllFit given lines)
    (found : statements grammar level tail lines = some nodes) : AllSpelled given nodes := by
  cases lines with
  | nil =>
    rw [statements_nil] at found
    cases found
    exact allSpelled_nil
  | cons line rest =>
    obtain ⟨here, taken, later, run, further, rfl⟩ := statements_cons_eq_some.mp found
    obtain ⟨first, others⟩ := List.forall_mem_cons.mp fit
    have below : AllFit given rest := others
    refine allSpelled_append.mpr ⟨allSpelled_append.mpr ⟨joins_spelled _, ?_⟩, ?_⟩
    · exact statement_spelled spells first below run
    · exact statements_spelled spells (below.drop taken) further
termination_by 4 * lines.length

/-- The statements that start on a line are spelled. -/
theorem statement_spelled {grammar : Parse Content} {level : Nat} {tail : List Note} {line : Line}
    {rest : List Line} {nodes : List Node} {taken : Nat} (spells : Spells grammar) (fits : line.Fits given)
    (fit : AllFit given rest) (found : statement grammar level tail line rest = some (nodes, taken)) :
    AllSpelled given nodes := by
  rcases statement_eq_some.mp found with ⟨read, rfl⟩ | ⟨applied, below, read, run, rfl⟩ |
    ⟨head, node, read, run, rfl⟩
  · cases fits.read spells read with
    | simple spelled => exact spelled
  · cases fits.read spells read with
    | decorator spelled =>
      refine allSpelled_cons.mpr ⟨decorated_node_spelled fits.beside_start ?_, allSpelled_nil⟩
      exact allSpelled_append.mpr ⟨spelled, decorated_spelled fit run⟩
  · cases fits.read spells read with
    | header spelled => exact allSpelled_cons.mpr ⟨compound_spelled fits spelled fit run, allSpelled_nil⟩
termination_by 4 * rest.length + 3

/-- What decorators are applied to is spelled. -/
theorem decorated_spelled {level : Nat} {tail : List Note} {lines : List Line} {nodes : List Node} {taken : Nat}
    (fit : AllFit given lines) (found : decorated level tail lines = some (nodes, taken)) :
    AllSpelled given nodes := by
  cases lines with
  | nil =>
    rw [decorated_nil] at found
    cases found
  | cons line rest =>
    obtain ⟨first, below⟩ := List.forall_mem_cons.mp fit
    rcases decorated_cons_eq_some.mp found with ⟨applied, later, count, read, run, rfl, rfl⟩ |
      ⟨head, node, count, read, defines, run, rfl, rfl⟩
    · cases first.read (fun _ => lineContent_spec) read with
      | decorator spelled => exact allSpelled_append.mpr ⟨spelled, decorated_spelled below run⟩
    · cases first.read (fun _ => lineContent_spec) read with
      | header spelled => exact allSpelled_cons.mpr ⟨compound_spelled first spelled below run, allSpelled_nil⟩
termination_by 4 * lines.length + 2

/-- The statement of a spelled header is spelled. -/
theorem compound_spelled {level : Nat} {tail : List Note} {line : Line} {head : Head} {role : Role}
    {rest : List Line} {node : Node} {taken : Nat} (fits : line.Fits given) (spelled : head.Spelled given)
    (fit : AllFit given rest) (found : compound level tail line head role rest = some (node, taken)) :
    node.Spelled given := by
  obtain ⟨body, count, later, more, run, follow, rfl, rfl⟩ := compound_eq_some.mp found
  refine spelled.node fits.beside_start (allSpelled_cons.mpr ⟨suite_spelled spelled fit run, ?_⟩)
  exact clauses_spelled (fit.drop count) follow
termination_by 4 * rest.length + 2

/-- The body of a spelled header is spelled. -/
theorem suite_spelled {level : Nat} {tail : List Note} {line : Line} {head : Head} {rest : List Line}
    {body : Node} {taken : Nat} (spelled : head.Spelled given) (fit : AllFit given rest)
    (found : suite level tail line head rest = some (body, taken)) : body.Spelled given := by
  rcases suite_eq_some.mp found with ⟨block, held, rfl, rfl⟩ | ⟨held, empty, rfl, rfl⟩ |
    ⟨first, later, children, held, body, run, rfl, rfl⟩
  · obtain ⟨plain, kept⟩ := spelled.body block held
    exact kept.upTo plain line.stop
  · exact .of_parts rfl allSpelled_nil
  · have inside := fit.bodyLines level
    rw [body] at inside
    obtain ⟨starts, others⟩ := List.forall_mem_cons.mp inside
    have fewer : later.length + 1 ≤ rest.length := by
      simpa [body] using length_bodyLines_le level rest
    -- The notes above the first line do not matter.
    have bare : AllFit given ({ first with notes := [] } :: later) :=
      List.forall_mem_cons.mpr ⟨⟨starts.tokens, starts.first⟩, others⟩
    exact .of_parts rfl (statements_spelled (spells_ite head.holdsCases) bare run)
termination_by 4 * rest.length + 1

/-- Clauses are spelled. -/
theorem clauses_spelled {stage : Stage} {level : Nat} {tail : List Note} {lines : List Line}
    {nodes : List Node} {taken : Nat} (fit : AllFit given lines)
    (found : clauses stage level tail lines = some (nodes, taken)) : AllSpelled given nodes := by
  cases lines with
  | nil =>
    obtain ⟨_, rfl, _⟩ := clauses_nil_eq_some.mp found
    exact allSpelled_nil
  | cons line rest =>
    obtain ⟨first, below⟩ := List.forall_mem_cons.mp fit
    have later : AllFit given rest := below
    rcases clauses_cons_eq_some.mp found with ⟨follow, ends, rfl, rfl⟩ |
      ⟨next, head, body, count, behind, more, follow, read, run, further, rfl, rfl⟩
    · exact allSpelled_nil
    · cases first.read (fun _ => clauseContent_spec _) read with
      | header spelled =>
        refine allSpelled_cons.mpr ⟨.of_parts rfl (allSpelled_append.mpr ⟨spelled.parts, ?_⟩), ?_⟩
        · exact allSpelled_cons.mpr ⟨suite_spelled spelled later run, allSpelled_nil⟩
        · exact clauses_spelled (later.drop count) further
termination_by 4 * lines.length + 1

end

end

end SourceOutline.Python
