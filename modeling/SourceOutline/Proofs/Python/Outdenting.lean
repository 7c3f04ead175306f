import SourceOutline.Proofs.Python.Nesting
import SourceOutline.Proofs.Python.Roundtrip
import SourceOutline.Proofs.Python.ShiftedRules

/-! A definition that stands evenly behind blanks is found again when its text is shifted to the first column. -/

namespace SourceOutline.Python

open Text

/-- A place where a line of an even text starts: its first one, or behind a line feed, the edge and more blanks. -/
def StartsBehind (edge text : List Char) (mark : Mark) : Prop :=
  mark = {} ∨ ∃ above more, AllBlank more ∧ above ++ '\n' :: (edge ++ more) <+: text ∧
    mark = Mark.pass {} (above ++ '\n' :: (edge ++ more))

/-- A line behind the edge starts there. -/
theorem Line.IsBehind.startsBehind {edge text : List Char} {line : Line} (behind : line.IsBehind edge text) :
    StartsBehind edge text line.start := by
  obtain ⟨above, more, further, within, start, _⟩ := behind.place
  exact .inr ⟨above, more, further, within, start⟩

/-- Blanks have a width. -/
theorem length_le_widthOf {cs : List Char} (blank : AllBlank cs) : cs.length ≤ widthOf cs := by
  induction cs with
  | nil => exact Nat.zero_le _
  | cons c rest ih =>
    obtain ⟨first, later⟩ := List.forall_mem_cons.mp blank
    have inner := ih later
    rw [← List.singleton_append, widthOf_append later]
    have own : 1 ≤ widthOf [c] := by rcases first with rfl | rfl <;> decide
    rw [List.singleton_append, List.length_cons]
    omega

mutual

/-- Nodes at places that correspond by way of others are corresponding nodes. -/
theorem Node.Alike.comp {first second both : Mark → Mark → Prop}
    {node node' node'' : Node} (alike : Node.Alike first node node') (alike' : Node.Alike second node' node'')
    (through : ∀ mark mark' mark'', first mark mark' → second mark' mark'' → both mark mark'') :
    Node.Alike both node node'' := by
  cases alike with
  | mk starts stops parts =>
    cases alike' with
    | mk starts' stops' parts' =>
      exact .mk (through _ _ _ starts starts') (through _ _ _ stops stops') (forall₂_alike_comp parts parts' through)
termination_by structural node

/-- Lists of nodes that correspond by way of others correspond. -/
theorem forall₂_alike_comp {first second both : Mark → Mark → Prop}
    {nodes nodes' nodes'' : List Node} (alike : List.Forall₂ (Node.Alike first) nodes nodes')
    (alike' : List.Forall₂ (Node.Alike second) nodes' nodes'')
    (through : ∀ mark mark' mark'', first mark mark' → second mark' mark'' → both mark mark'') :
    List.Forall₂ (Node.Alike both) nodes nodes'' := by
  cases alike with
  | nil =>
    cases alike' with
    | nil => exact .nil
  | cons here later =>
    cases alike' with
    | cons here' later' => exact .cons (here.comp here' through) (forall₂_alike_comp later later' through)
termination_by structural nodes

end

/-- A place of the text in its source corresponds to the same place of the shifted text. -/
theorem Corresponds.outdented {start : Mark} {text : List Char} {width : Nat} {mark mark' mark'' : Mark}
    (same : Corresponds start text mark mark') (moved : Outdented {} width text mark' mark'') :
    Outdented start width text mark mark'' := by
  obtain ⟨seen, within, rfl, rfl⟩ := same
  obtain ⟨seen', within', place, rfl⟩ := moved
  obtain rfl := eq_of_pass within within' place
  exact ⟨seen, within, rfl, rfl⟩

/-- No blank follows in the source where none follows in the text. -/
theorem Corresponds.firm {start : Mark} {text : List Char} {mark mark' : Mark}
    (same : Corresponds start text mark mark') (firm : Firm {} text mark') : Firm start text mark := by
  obtain ⟨seen, within, rfl, rfl⟩ := same
  obtain ⟨seen', c, rest, rfl, place, solid⟩ := firm
  obtain rfl := eq_of_pass within ⟨_, rfl⟩ place
  exact ⟨seen, c, rest, rfl, rfl, solid⟩

/-- What is found in a text of its own starts at its start. -/
theorem Excerpt.again_start {source front text back : List Char} {node again : Node}
    (excerpt : Excerpt source node front text back again) : again.start = {} := by
  obtain ⟨seen, _, here, place⟩ := excerpt.alike.start
  have offsets := congrArg Mark.offset here
  rw [offset_pass] at offsets
  obtain rfl : seen = [] := List.eq_nil_of_length_eq_zero (by omega)
  exact place

/-- What is found in a text of its own corresponds to the node from the front of the text on. -/
theorem Excerpt.alike_front {source front text back : List Char} {node again : Node}
    (excerpt : Excerpt source node front text back again) :
    Node.Alike (Corresponds (Mark.pass {} front) text) node again :=
  excerpt.start ▸ excerpt.alike

/-- What opens a suite is its first statement. -/
theorem Node.Opens.suiteStatements_eq {mark : Mark} {node suite : Node} {rest : List Node} (opens : node.Opens mark)
    (first : suite.children = node :: rest) : ∃ later, suiteStatements suite = node :: later := by
  refine ⟨(rest.filter Node.isNamed).filter fun child => !child.isComment, ?_⟩
  simp [suiteStatements, Node.namedChildren, first, opens.named, opens.spoken]

/-- No blank follows where a written token starts. -/
theorem firm_of_written {text : List Char} {layout : Layout} (laid : layoutOf text = some layout) {line : Line}
    (among : line ∈ layout.lines) {token : Token} (member : token ∈ line.tokens) (written : token.isWritten = true) :
    Firm {} text token.start := by
  obtain ⟨front, word, ⟨back, rfl⟩, start, _, plain⟩ := stands_of_mem laid among member
  obtain ⟨some_char, firm⟩ := plain written
  obtain ⟨c, rest, rfl⟩ := List.exists_cons_of_ne_nil some_char
  exact ⟨front, c, rest ++ back, by simp, start, (firm_of_not_mem_separators (firm c List.mem_cons_self)).1⟩

/-- A line of a source starts with a token and holds its own tokens. -/
theorem begins_of_laid {text : List Char} {layout : Layout} (laid : layoutOf text = some layout) {line : Line}
    (among : line ∈ layout.lines) : line.Begins := ⟨fun _ member => member, exists_written laid among⟩

/-- Places that correspond are as many rows further down. -/
theorem Corresponds.row_eq {start mark mark' : Mark} {text : List Char} (same : Corresponds start text mark mark') :
    mark.row = start.row + mark'.row := by
  obtain ⟨seen, _, rfl, rfl⟩ := same
  rw [row_pass_count, row_pass_count]
  exact (congrArg (start.row + ·) (Nat.zero_add _)).symm

/-- A row that starts with blanks is indented by them and by those that follow. -/
theorem rowIndent_behind {front blanks : List Char} (first : (Mark.pass {} front).column = 0) (blank : AllBlank blanks)
    (rest : List Char) :
    (Mark.pass {} (front ++ blanks)).column = blanks.length ∧
      rowIndent (rowsOf (front ++ (blanks ++ rest))) (Mark.pass {} (front ++ blanks)).row =
        blanks.length + (rest.takeWhile isIndent).length := by
  have single : '\n' ∉ blanks := fun member => by
    rcases blank _ member with same | same <;> cases same
  have all : ∀ c ∈ blanks, isIndent c = true := fun c member => by
    rcases blank c member with rfl | rfl <;> rfl
  rw [Mark.pass_append, (pass_line single _).1, rowIndent_pass first, List.takeWhile_append_of_pos all,
    List.length_append, column_of_isIndent all, first, Nat.zero_add]
  exact ⟨rfl, rfl⟩

/-- The lines of a text seat statements, when the first one starts the text and the others stand behind the edge. -/
theorem seats_of_laid {edge text : List Char} {line : Line} {rest : List Line} {notes : List Note}
    (laid : layoutOf text = some ⟨line :: rest, notes⟩) (bare : line.notes = []) (here : line.start = {})
    (behind : ∀ other ∈ rest, other.IsBehind edge text) :
    ∀ other ∈ line :: rest, other.Seats (Firm {} text) (StartsBehind edge text) := by
  intro other member
  have firm := fun token inside => @firm_of_written _ _ laid _ member token inside
  have begins := begins_of_laid laid member
  rcases List.mem_cons.mp member with rfl | inside
  · exact ⟨by rw [bare]; exact nofun, firm, .inl here, begins⟩
  · exact ⟨(behind other inside).comments, firm, (behind other inside).startsBehind, begins⟩

/-- The statement that lines hold at the level of the edge is alone at the outermost level in the shifted text. -/
theorem Layout.Outdents.exists_alone {same : Mark → Mark → Prop} {less : Nat} {text : List Char} {line : Line}
    {rest : List Line} {notes : List Note} {layout : Layout} {copy : Node}
    (outdents : Layout.Outdents same less ⟨line :: rest, notes⟩ layout) (laid : layoutOf text = some layout)
    (no_joins : Line.joins notes = [])
    (run : statement lineContent less notes line rest = some ([copy], rest.length)) :
    ∃ again, IsAlone 0 text again ∧ Node.Alike same copy again := by
  obtain ⟨⟨_, _, line', rest', split, split', _, bare, first, lines⟩, notes_alike⟩ := outdents
  cases split
  obtain ⟨_, notes'⟩ := layout
  cases split'
  have outer : statement lineContent 0 (notes.map (Note.shallower less)) (line.shallower less)
      (rest.map (Line.shallower less)) = some ([copy], rest.length) := statement_shallower (by rwa [Nat.zero_add])
  obtain ⟨nodes, run', alike⟩ := statement_alike (fun deeper _ => takeWhile_alike notes_alike deeper)
    (show Line.ReadAlike same (line.shallower less) line' from ⟨first.tokens, first.some_token⟩) lines outer
  obtain ⟨again, _, here, none, rfl⟩ := List.forall₂_cons_left_iff.mp alike
  cases none
  have joins := joins_alike notes_alike
  rw [joins_shallower, no_joins, List.forall₂_nil_left_iff] at joins
  have length : rest.length = rest'.length := by simpa using lines.length_eq
  exact ⟨again, ⟨line', rest', notes', laid, bare, joins, length ▸ run'⟩, here⟩

namespace Evenly

variable {source above edge text back : List Char} (evenly : Evenly source above edge text back)

include evenly

/-- Where a row of the text starts behind the edge, a row of the source does. -/
theorem exists_behind {before more : List Char} {mark : Mark} (within : before ++ '\n' :: (edge ++ more) <+: text)
    (same : Corresponds (Mark.pass {} (above ++ edge)) text mark
      (Mark.pass {} (before ++ '\n' :: (edge ++ more)))) :
    ∃ front rest, (Mark.pass {} front).column = 0 ∧ text = before ++ '\n' :: (edge ++ more) ++ rest ∧
      source = front ++ ((edge ++ more) ++ (rest ++ back)) ∧ mark = Mark.pass {} (front ++ (edge ++ more)) := by
  obtain ⟨rest, rfl⟩ := within
  obtain ⟨seen, within, rfl, place⟩ := same
  have offsets := congrArg Mark.offset place
  rw [offset_pass, offset_pass] at offsets
  obtain rfl : before ++ '\n' :: (edge ++ more) = seen :=
    (List.prefix_of_prefix_length_le ⟨rest, rfl⟩ within (by omega)).eq_of_length (by omega)
  refine ⟨above ++ edge ++ before ++ ['\n'], rest, ?_, rfl, ?_, ?_⟩
  · rw [Mark.pass_append]
    rfl
  · rw [evenly.whole]
    simp
  · rw [← Mark.pass_append]
    simp

/-- Lines of the text start on rows of the source that are indented by the edge at least. -/
theorem le_rowIndent {mark mark' : Mark} (same : Corresponds (Mark.pass {} (above ++ edge)) text mark mark')
    (starts : StartsBehind edge text mark') : edge.length ≤ rowIndent (rowsOf source) mark.row := by
  rcases starts with here | ⟨before, more, further, within, rfl⟩
  · obtain ⟨seen, _, rfl, place⟩ := same
    obtain rfl : seen = [] := by
      have offsets := congrArg Mark.offset (place.symm.trans here)
      rw [offset_pass] at offsets
      exact List.eq_nil_of_length_eq_zero (by simpa using offsets)
    rw [evenly.whole, List.append_assoc]
    exact (rowIndent_behind evenly.first evenly.even.blank (text ++ back)).2 ▸ Nat.le_add_right _ _
  · obtain ⟨front, rest, first, _, rfl, rfl⟩ := evenly.exists_behind within same
    have blank : AllBlank (edge ++ more) := List.forall_mem_append.mpr ⟨evenly.even.blank, further⟩
    rw [(rowIndent_behind first blank (rest ++ back)).2, List.length_append]
    omega

/-- A line of the text behind the edge opens its row of the source. -/
theorem opens_of_isBehind {mark : Mark} {line : Line} (behind : line.IsBehind edge text)
    (same : Corresponds (Mark.pass {} (above ++ edge)) text mark line.start) (firm : Firm {} text line.start) :
    mark.column = rowIndent (rowsOf source) mark.row ∧ (edge.length < mark.column → widthOf edge < line.margin) := by
  obtain ⟨before, more, further, within, place, margin⟩ := behind.place
  rw [place] at same firm
  obtain ⟨front, rest, first, whole, rfl, rfl⟩ := evenly.exists_behind within same
  obtain ⟨seen, c, after, whole', place', firm⟩ := firm
  have offsets := congrArg Mark.offset place'
  rw [offset_pass, offset_pass] at offsets
  obtain ⟨rfl, rfl⟩ := List.append_inj (whole.symm.trans whole') (by omega)
  have blank : AllBlank (edge ++ more) := List.forall_mem_append.mpr ⟨evenly.even.blank, further⟩
  obtain ⟨column, indent⟩ := rowIndent_behind first blank (c :: after ++ back)
  refine ⟨?_, fun deep => ?_⟩
  · rw [column, indent, List.cons_append, List.takeWhile_cons_of_neg (Bool.eq_false_iff.mp firm)]
    rfl
  · rw [column, List.length_append] at deep
    have wide := length_le_widthOf further
    omega

/-- The first line of a body that takes all lines below its header is indented further than the edge, when the body
fits below the header in the source. -/
theorem lt_margin_of_fitsBelow {line : Line} {rest : List Line} {notes : List Note}
    (laid : layoutOf text = some ⟨line :: rest, notes⟩) (here : line.start = {})
    (behind : ∀ other ∈ rest, other.IsBehind edge text) {level : Nat} {tail : List Note} {heading : Line}
    {head : Head} {below : List Line} {header block body : Node} (within : heading :: below <:+ line :: rest)
    (run : suite level tail heading head below = some (body, below.length))
    (starts : Corresponds (Mark.pass {} (above ++ edge)) text header.start heading.start)
    (blocks : Node.Alike (Corresponds (Mark.pass {} (above ++ edge)) text) block body)
    (fits : FitsBelow (rowsOf source) header block) (first : Line) (later : List Line)
    (lines : bodyLines level below = first :: later) : widthOf edge < first.margin := by
  have inside : first ∈ below := by
    obtain ⟨back, split⟩ := bodyLines_isPrefix level below
    rw [← split, lines]
    simp
  have apart : heading.start.row < first.start.row := by
    obtain ⟨front, whole⟩ := within
    have rows := starts_apart laid
    rw [← whole, List.map_append, List.map_cons, List.pairwise_append, List.pairwise_cons] at rows
    exact rows.2.1.1 _ (List.mem_map_of_mem inside)
  have among : first ∈ line :: rest := within.subset (List.mem_cons_of_mem heading inside)
  have own : first.IsBehind edge text := by
    refine (List.mem_cons.mp among).elim (fun same => ?_) (behind first)
    -- No row stands above the one where the text starts.
    rw [same, here] at apart
    exact absurd apart (Nat.not_lt_zero _)
  have seat : StartsBehind edge text heading.start := by
    rcases List.mem_cons.mp (within.subset List.mem_cons_self) with rfl | member
    · exact .inl here
    · exact (behind heading member).startsBehind
  rcases suite_eq_some.mp run with ⟨_, _, _, none⟩ | ⟨_, none, _, _⟩ |
    ⟨first', later', children, _, lines', found, _, rfl⟩
  · rw [List.eq_nil_of_length_eq_zero none] at inside
    cases inside
  · rw [none] at lines
    cases lines
  · rw [lines] at lines'
    obtain ⟨rfl, rfl⟩ := List.cons.inj lines'
    have begins := begins_of_laid laid among
    obtain ⟨opener, others, rfl, opens⟩ := statements_lead head.holdsCases
      (show Line.Begins { first with notes := [] } from ⟨begins.tokens, begins.first⟩) rfl found
    have stated := blocks.suiteStatements
    obtain ⟨others, first_of⟩ :=
      opens.suiteStatements_eq (show Node.children (.mk _ _ _ _ (opener :: others)) = _ from rfl)
    rw [first_of] at stated
    obtain ⟨statement, later, start, _, statements⟩ := List.forall₂_cons_right_iff.mp stated
    have place : Corresponds (Mark.pass {} (above ++ edge)) text statement.start first.start :=
      opens.start ▸ start.start
    obtain ⟨token, more, tokens, written⟩ := begins.first
    have firm := firm_of_written laid among (by rw [tokens]; exact List.mem_cons_self) written
    have same_start : first.start = token.start := by rw [Line.start, tokens]; rfl
    obtain ⟨open_row, deeper⟩ := evenly.opens_of_isBehind own place (same_start ▸ firm)
    refine deeper ?_
    obtain ⟨_, _, list, beside | ⟨column, beyond, all⟩⟩ := fits
    · rw [list] at statements
      obtain ⟨rfl, _⟩ := List.cons.inj statements
      have rows := place.row_eq
      have header_rows := starts.row_eq
      omega
    · have indent := evenly.le_rowIndent starts seat
      rw [all statement (by rw [statements]; exact List.mem_cons_self) open_row]
      omega

/-- A definition that is alone on the lines of the text is so at the level of the edge, when its body fits below its
header in the source. -/
theorem statement_edge {line : Line} {rest : List Line} {notes : List Note}
    (laid : layoutOf text = some ⟨line :: rest, notes⟩) (here : line.start = {})
    (behind : ∀ other ∈ rest, other.IsBehind edge text) {level : Nat} {node definition copy : Node}
    (alike : Node.Alike (Corresponds (Mark.pass {} (above ++ edge)) text) node copy)
    (of : definitionOf node = some definition)
    (fits : ∀ header, Occurs node header → ∀ block ∈ header.namedChildren, block.kind = .block →
      FitsBelow (rowsOf source) header block)
    (run : statement lineContent level notes line rest = some ([copy], rest.length)) :
    statement lineContent (widthOf edge) notes line rest = some ([copy], rest.length) := by
  have definitions := definitionOf_alike alike
  rw [of] at definitions
  obtain ⟨definition', of', definitions⟩ := exists_of_rel_some definitions
  obtain ⟨_, heading, head, role, below, count, within, counts, heads, again⟩ :=
    exists_heads run List.mem_cons_self of'
  obtain rfl : count = below.length := by omega
  obtain ⟨body, suited, lower, kind, starts, _, further⟩ := heads.exists_suite
  have defines : definition.kind.defines = true := by
    rw [← definitions.kind, heads.kind_eq]
    exact Kind.defines_of_either heads.defines
  have blocks := definitions.child? .body
  rw [lower] at blocks
  -- Nothing above the suite minds the level, and the suite does not as long as its first line exceeds it.
  refine again _ (further _ (suite_relevel suited ?_))
  generalize lower' : definition.child? .body = block at blocks
  cases blocks with
  | @some block _ blocks =>
    rw [blocks.kind] at kind
    have named : block ∈ definition.namedChildren :=
      List.mem_filter.mpr ⟨List.mem_of_find?_eq_some lower', by rw [Node.isNamed, kind]; rfl⟩
    exact evenly.lt_margin_of_fitsBelow laid here behind within suited (starts ▸ definitions.start) blocks
      (fits definition (occurs_definitionOf of defines) block named kind)

/-- The definition that stands alone in the text stands alone at the outermost level in the shifted text, when its
body fits below its header in the source. -/
theorem exists_outdented {level : Nat} {node definition copy : Node}
    (excerpt : Excerpt source node (above ++ edge) text back copy) (alone : IsAlone level text copy)
    (of : definitionOf node = some definition)
    (fits : ∀ header, Occurs node header → ∀ block ∈ header.namedChildren, block.kind = .block →
      FitsBelow (rowsOf source) header block) :
    ∃ again, IsAlone 0 (shifted some edge.length 0 text) again ∧
      Node.Alike (Outdented {} edge.length text) copy again ∧ copy.Seated (Firm {} text) (StartsBehind edge text) := by
  obtain ⟨line, rest, notes, laid, bare, no_joins, run⟩ := alone
  obtain ⟨layout, layout', laid', copied, outdents, behind⟩ := evenly.even.layoutOf_shifted
  cases laid.symm.trans laid'
  have here : line.start = {} := by
    obtain ⟨definition', of', _⟩ := exists_of_rel_some (of ▸ definitionOf_alike excerpt.alike)
    obtain ⟨_, start, _⟩ := statement_detached run List.mem_cons_self (defines_of_definitionOf of')
    rw [← start, excerpt.again_start]
  obtain ⟨again, alone', same⟩ := outdents.exists_alone copied no_joins
    (evenly.statement_edge laid here behind excerpt.alike_front of fits run)
  obtain ⟨first, later⟩ := List.forall_mem_cons.mp (seats_of_laid laid bare here behind)
  exact ⟨again, alone', same, (statement_seated readsSeated_lineContent first later run copy List.mem_cons_self).2.2⟩

/-- A definition in an accepted source is accepted alone when its text is shifted to the first column, at
corresponding places. -/
theorem exists_accepted {tree parent node definition copy : Node} {level : Nat}
    (accepted : checkStructure source tree = .ok ()) (occurs : Occurs tree parent)
    (member : node ∈ parent.namedChildren) (excerpt : Excerpt source node (above ++ edge) text back copy)
    (alone : IsAlone level text copy) (of : definitionOf node = some definition) :
    ∃ again stop, parse (shifted some edge.length 0 text) = some (.mk .module .part {} stop [again]) ∧
      checkStructure (shifted some edge.length 0 text) (.mk .module .part {} stop [again]) = .ok () ∧
      again.start = {} ∧ Node.Alike (Outdented (Mark.pass {} (above ++ edge)) edge.length text) node again := by
  have legal := (checkStructure_eq_ok_iff source tree).mp accepted
  obtain ⟨again, alone', same, seated⟩ := evenly.exists_outdented excerpt alone of
    fun header inside => legal.nested header ((occurs.part member).trans inside)
  have both : Node.Alike (Outdented (Mark.pass {} (above ++ edge)) edge.length text) node again :=
    excerpt.alike_front.comp same fun _ _ _ => Corresponds.outdented
  have start : again.start = {} := by
    obtain ⟨seen, _, here, place⟩ := same.start
    rw [excerpt.again_start] at here
    rw [place, ← nil_of_pass here]
    rfl
  have seats : node.Seated (Firm (Mark.pass {} (above ++ edge)) text)
      fun mark => edge.length ≤ rowIndent (rowsOf source) mark.row :=
    seated.alike excerpt.alike_front (fun _ _ => Corresponds.firm) fun _ _ => evenly.le_rowIndent
  have other : node.kind ≠ .block := fun kind => by
    have defines := defines_of_definitionOf of
    rw [kind] at defines
    cases defines
  exact ⟨again, _, alone'.parse_eq, evenly.lessRows.checkStructure_alone accepted occurs member ⟨both, seats⟩ other
    (congrArg Mark.column start) _, start, both⟩

end Evenly

end SourceOutline.Python
