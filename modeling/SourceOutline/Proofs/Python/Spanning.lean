import SourceOutline.Proofs.Python.BareLines
import SourceOutline.Proofs.Python.Passing

/-! The tokens that types, bases and imports are parsed from: they start and end with one that is written. -/

namespace SourceOutline.Python

open Parse

/-- Two places between which some of the tokens stand, the first and the last of which are written. -/
def Spans (given : List Token) (start stop : Mark) : Prop :=
  ∃ span, span <:+: given ∧ (∃ first, span.head? = some first ∧ first.isWritten = true ∧ first.start = start) ∧
    ∃ last, span.getLast? = some last ∧ last.isWritten = true ∧ last.stop = stop

/-- A node stands on some of the tokens. -/
def Node.Stands (given : List Token) (node : Node) : Prop := Spans given node.start node.stop

/-- A node stands on tokens among more of them. -/
theorem Node.Stands.mono {given more : List Token} {node : Node} (stands : node.Stands given) (among : given <:+: more) :
    node.Stands more := by
  obtain ⟨span, inside, ends⟩ := stands
  exact ⟨span, inside.trans among, ends⟩

/-- Behind the last written token stand only comments and joins. -/
theorem exists_last_written {tokens : List Token} (written : ∃ token ∈ tokens, token.isWritten = true) :
    ∃ front last back, tokens = front ++ last :: back ∧ last.isWritten = true ∧
      (tokens.filter Token.isWritten).getLast? = some last := by
  induction tokens using List.reverseRecOn with
  | nil => simp at written
  | append_singleton tokens token ih =>
    cases own : token.isWritten with
    | true => exact ⟨tokens, token, [], rfl, own, by simp [own]⟩
    | false =>
      obtain ⟨front, last, back, rfl, ends, same⟩ := ih (by
        obtain ⟨other, member, holds⟩ := written
        rcases List.mem_append.mp member with inside | alone
        · exact ⟨other, inside, holds⟩
        · rw [List.mem_singleton.mp alone, own] at holds
          cases holds)
      refine ⟨front, last, back ++ [token], by simp, ends, ?_⟩
      rw [List.filter_append, List.filter_cons_of_neg (by simp [own]), List.filter_nil, List.append_nil, same]

/-- From the place of the next token to the end of the last one taken behind it stand tokens. -/
theorem spans_of_here {cursor settled moved : Cursor} {start : Mark} {passed : List Token}
    (seen : here cursor = some (start, settled)) (passes : settled.Passes moved passed)
    (written : ∃ token ∈ passed, token.isWritten = true) : Spans passed start moved.last := by
  cases (here_eq cursor).symm.trans seen
  have plain := (passTrivia_spec cursor.trivia cursor.tokens).2
  have tokens : (passTrivia cursor.trivia cursor.tokens).2 = passed ++ moved.tokens := passes.tokens
  obtain ⟨front, last, back, rfl, ends, same⟩ := exists_last_written written
  obtain ⟨first, rest, split⟩ : ∃ first rest, front ++ [last] = first :: rest :=
    List.exists_cons_of_ne_nil (by simp)
  have whole : front ++ last :: back = first :: (rest ++ back) := by
    rw [← List.cons_append, ← split]
    simp
  rw [whole] at tokens
  refine ⟨front ++ [last], ⟨[], back, by simp⟩, ⟨first, by rw [split]; rfl, ?_, ?_⟩, last, by simp, ends, ?_⟩
  · simp [Token.isWritten, plain first (by rw [tokens]; rfl)]
  · show _ = ((passTrivia cursor.trivia cursor.tokens).2.head?.map Token.start).getD _
    rw [tokens]
    rfl
  · rw [passes.last, same]
    rfl

/-- What a parser finds is good for all tokens passed since the cursor has started. -/
def Parse.Reads {α : Type} (origin : Cursor) (parser : Parse α) (good : List Token → α → Prop) : Prop :=
  ∀ before cursor, origin.Passes cursor before → ∀ value moved, parser cursor = some (value, moved) →
    ∃ later, cursor.Passes moved later ∧ good (before ++ later) value

namespace Parse

variable {α β : Type} {origin : Cursor} {parser : Parse α} {good : List Token → α → Prop}

/-- What a parser finds whatever it passes is read. -/
theorem Reads.of_finds [moves : Moves parser] {fine : α → Prop} (finds : parser.Finds fine) :
    Reads origin parser fun _ => fine := fun _ cursor _ value moved run =>
  (moves.passes run).imp fun _ passes => ⟨passes, finds cursor value moved run⟩

/-- Of what is read nothing need be said. -/
theorem Reads.any [Moves parser] : Reads origin parser fun _ _ => True := .of_finds fun _ _ _ _ => trivial

/-- What is read is good for less, too. -/
theorem Reads.imp {fine : List Token → α → Prop} (reads : Reads origin parser fine)
    (holds : ∀ passed value, fine passed value → good passed value) : Reads origin parser good :=
  fun before cursor since value moved run =>
    (reads before cursor since value moved run).imp fun _ both => ⟨both.1, holds _ _ both.2⟩

/-- A given value is read when it is good for all tokens. -/
theorem Reads.pure {value : α} (holds : ∀ passed, good passed value) : Reads origin (pure value) good := by
  intro before cursor since found moved run
  cases run
  exact ⟨[], .refl cursor, holds _⟩

/-- What is read behind another parser may use what that one has read. -/
theorem Reads.bind {first : Parse β} {fine : List Token → β → Prop} (reads : Reads origin first fine)
    {second : β → Parse α}
    (behind : ∀ before value, fine before value →
      Reads origin (second value) fun passed result => before <+: passed → good passed result) :
    Reads origin (first >>= second) good := by
  intro before cursor since value moved run
  obtain ⟨found, middle, one, two⟩ := bind_eq_some.mp run
  obtain ⟨own, passes, holds⟩ := reads _ _ since _ _ one
  obtain ⟨later, passes', result⟩ := behind _ found holds _ _ (since.trans passes) _ _ two
  refine ⟨own ++ later, passes.trans passes', ?_⟩
  rw [← List.append_assoc]
  exact result (List.prefix_append _ _)

/-- What is read behind another parser is good whatever that one finds. -/
theorem Reads.behind (first : Parse β) [moves : Moves first] {second : β → Parse α}
    (reads : ∀ value, Reads origin (second value) good) : Reads origin (first >>= second) good := by
  exact .bind (.any : Reads origin first _) fun _ value _ => (reads value).imp fun _ _ holds _ => holds

/-- What either of two parsers reads is good. -/
theorem Reads.ite {condition : Prop} [Decidable condition] {second : Parse α} (reads : Reads origin parser good)
    (reads' : Reads origin second good) : Reads origin (if condition then parser else second) good := by
  split
  · exact reads
  · exact reads'

/-- A failure reads nothing. -/
theorem Reads.fail : Reads origin fail good := fun _ _ _ _ _ run => by cases run

/-- What follows a check is read when the check succeeds. -/
theorem Reads.unless {refused : Prop} [Decidable refused] {rest : Unit → Parse α} (reads : Reads origin (rest ()) good) :
    Reads origin (if refused then Parse.fail >>= rest else rest ()) good := by
  split
  · have failed : Reads origin (Parse.fail : Parse Unit) fun _ _ => False := .fail
    exact .bind failed fun _ _ => False.elim
  · exact reads

/-- What is read again and again is good each time when it stays so for more tokens. -/
theorem Reads.repeatWhile (condition : Parse Bool) [asks : Moves condition] (reads : Reads origin parser good)
    (stays : ∀ passed more value, passed <+: more → good passed value → good more value) :
    Reads origin (repeatWhile condition parser) fun passed found => ∀ value ∈ found, good passed value := by
  have each : ∀ fuel done before cursor, origin.Passes cursor before → (∀ value ∈ done, good before value) →
      ∀ found moved, repeatFrom condition parser done fuel cursor = some (found, moved) →
        ∃ later, cursor.Passes moved later ∧ ∀ value ∈ found, good (before ++ later) value := by
    intro fuel
    induction fuel with
    | zero => exact fun _ _ _ _ _ _ _ run => by cases run
    | succ fuel ih =>
      intro done before cursor since held found moved run
      rw [repeatFrom] at run
      split at run
      · cases run
      · rename_i asked
        cases run
        obtain ⟨later, passes⟩ := asks.passes asked
        refine ⟨later, passes, fun value member => ?_⟩
        exact stays _ _ _ (List.prefix_append _ _) (held value (List.mem_reverse.mp member))
      · rename_i asked
        obtain ⟨first, passes⟩ := asks.passes asked
        split at run
        · cases run
        · rename_i value further parsed
          obtain ⟨own, passes', holds⟩ := reads _ _ (since.trans passes) _ _ parsed
          have all : ∀ other ∈ value :: done, good (before ++ first ++ own) other := by
            refine List.forall_mem_cons.mpr ⟨holds, fun other member => ?_⟩
            rw [List.append_assoc]
            exact stays _ _ _ (List.prefix_append _ _) (held other member)
          obtain ⟨later, passes'', goods⟩ := ih _ _ _ ((since.trans passes).trans passes') all _ _ run
          refine ⟨first ++ own ++ later, (passes.trans passes').trans passes'', ?_⟩
          simpa using goods
  exact fun before cursor since found moved run => each _ _ _ _ since (by simp) _ _ run

/-- Items with commas between them are good when each item is and stays so for more tokens. -/
theorem Reads.commaSeparated (ends : Parse Bool) [Moves ends] [Moves parser] (reads : Reads origin parser good)
    (stays : ∀ passed more value, passed <+: more → good passed value → good more value) :
    Reads origin (commaSeparated ends parser) fun passed found => ∀ value ∈ found.1, good passed value := by
  refine .behind ends fun ended => ?_
  split
  · exact .pure (by simp)
  · refine .bind reads fun before first holds => .behind _ fun comma => ?_
    refine .bind (.repeatWhile _ reads stays) fun _ later others => .pure fun passed more among => ?_
    exact List.forall_mem_cons.mpr ⟨stays _ _ _ among holds, fun value member => stays _ _ _ more (others value member)⟩

end Parse

/-- The tokens passed are told by those left. -/
theorem Cursor.Passes.unique {cursor moved : Cursor} {passed others : List Token} (passes : cursor.Passes moved passed)
    (again : cursor.Passes moved others) : passed = others :=
  List.append_cancel_right (passes.tokens.symm.trans again.tokens)

section Nodes

variable {origin : Cursor}

/-- A node stands on the tokens taken for its parts. -/
theorem reads_node (kind : Kind) (role : Role) {children : Parse (List Node)} [takes : Takes children]
    {good : List Token → List Node → Prop} (reads : Parse.Reads origin children good) :
    (node kind role children).Reads origin fun passed node =>
      node.kind = kind ∧ node.role = role ∧ node.Stands passed ∧ good passed node.children := by
  intro before cursor since found moved run
  obtain ⟨start, settled, seen, rest⟩ := bind_eq_some.mp run
  obtain ⟨parts, further, parsed, built⟩ := bind_eq_some.mp rest
  cases built
  obtain ⟨first, passes⟩ := moves_here.passes seen
  obtain ⟨later, passes', holds⟩ := reads _ _ (since.trans passes) _ _ parsed
  obtain ⟨others, again, written⟩ := takes.passes parsed
  cases again.unique passes'
  rw [List.append_assoc] at holds
  have stands : Node.Stands later (.mk kind role start moved.last parts) := spans_of_here seen passes' written
  refine ⟨first ++ later, passes.trans passes', rfl, rfl, stands.mono ?_, holds⟩
  exact ⟨before ++ first, [], by simp⟩

/-- A node stands on the tokens taken for its parts. -/
theorem reads_standing (kind : Kind) (role : Role) {children : Parse (List Node)} [Takes children] :
    (node kind role children).Reads origin fun passed node => node.Stands passed :=
  (reads_node kind role .any).imp fun _ _ own => own.2.2.1

/-- The node of an expression stands on the tokens taken for it. -/
theorem reads_expressionNode (role : Role) {parser : Parse Expression} [takes : Takes parser] :
    (expressionNode role parser).Reads origin fun passed node => node.role = role ∧ node.Stands passed := by
  intro before cursor since found moved run
  obtain ⟨start, settled, seen, rest⟩ := bind_eq_some.mp run
  obtain ⟨expression, further, parsed, built⟩ := bind_eq_some.mp rest
  cases built
  obtain ⟨first, passes⟩ := moves_here.passes seen
  obtain ⟨later, passes', written⟩ := takes.passes parsed
  have stands : Node.Stands later (.mk expression.kind role start moved.last expression.parts) :=
    spans_of_here seen passes' written
  refine ⟨first ++ later, passes.trans passes', rfl, stands.mono ?_⟩
  exact ⟨before ++ first, [], by simp⟩

/-- A name has the role that is given to it, and no parts. -/
theorem finds_nameNode (role : Role) : (nameNode role).Finds fun node => node.role = role ∧ node.children = [] :=
  .behind identifier fun _ => .pure ⟨rfl, rfl⟩

/-- The type of a parameter stands on tokens, unless the parameter is a pattern. -/
def Node.TypesStand (given : List Token) (parameter : Node) : Prop :=
  parameter.kind ≠ .tuplePattern → ∀ type ∈ parameter.children, type.role = .type → type.Stands given

/-- Types stand on tokens among more of them. -/
theorem Node.TypesStand.mono {given more : List Token} {parameter : Node} (stand : parameter.TypesStand given)
    (among : given <:+: more) : parameter.TypesStand more :=
  fun kind type member role => (stand kind type member role).mono among

/-- A parameter without parts has no type. -/
theorem Node.TypesStand.of_leaf {given : List Token} {parameter : Node} (leaf : parameter.children = []) :
    parameter.TypesStand given := by
  intro _ type member
  rw [leaf] at member
  cases member

section Parameters

variable {inner primary : Parse Expression} [Takes inner] [Takes primary]

/-- A type behind a colon stands on its tokens. -/
theorem reads_typeBehind (typed : Bool) :
    (typeBehind inner typed).Reads origin fun passed types => ∀ type ∈ types, type.Stands passed := by
  refine .ite (.behind _ fun given => .ite ?_ (.pure (by simp))) (.pure (by simp))
  refine .bind (reads_expressionNode .type) fun before type stands => .pure fun passed more => ?_
  exact List.forall_mem_singleton.mpr (stands.2.mono more.isInfix)

/-- A parameter behind stars has a type that stands on its tokens. -/
theorem reads_splat (kind : Kind) (typed : Bool) (start : Mark) :
    (splat inner kind typed start).Reads origin fun passed parameter => parameter.TypesStand passed := by
  refine .bind (.of_finds (finds_nameNode .part)) fun _ name own => ?_
  refine .bind (reads_typeBehind typed) fun before types stand => .ite (.pure ?_) (.behind _ fun _ => .pure ?_)
  · intro passed _ _ _ type member role
    rw [List.mem_singleton.mp member, own.1] at role
    cases role
  · intro passed more _ _ type member role
    rcases List.mem_cons.mp member with rfl | among
    · cases role
    · exact (stand type among).mono more.isInfix

/-- A parameter from its name or pattern on has a type that stands on its tokens. -/
theorem reads_parameterFrom (typed : Bool) (start : Mark) {name : Node} (other : name.role ≠ .type)
    (plain : name.kind = .tuplePattern ∨ name.children = []) :
    (parameterFrom inner typed start name).Reads origin fun passed parameter => parameter.TypesStand passed := by
  refine .bind (reads_typeBehind typed) fun before types stand => .behind _ fun defaulted => .ite ?_ (.ite ?_ ?_)
  · refine .bind (reads_expressionNode .part) fun _ value own => .behind _ fun _ => .pure fun passed _ more => ?_
    intro _ type member role
    rw [Node.children, List.cons_append, List.mem_cons, List.mem_append, List.mem_singleton] at member
    rcases member with rfl | among | rfl
    · exact absurd role other
    · exact (stand type among).mono more.isInfix
    · cases own.1.symm.trans role
  · refine .pure fun passed more => ?_
    cases name
    rcases plain with pattern | leaf
    · exact fun kind => absurd pattern kind
    · exact .of_leaf leaf
  · refine .behind _ fun _ => .pure fun passed more => ?_
    intro _ type member role
    rcases List.mem_cons.mp member with rfl | among
    · cases name
      cases role
    · exact (stand type among).mono more.isInfix

/-- A parameter with a name or a pattern has a type that stands on its tokens. -/
theorem reads_plainParameter (typed : Bool) :
    (plainParameter primary inner typed).Reads origin fun passed parameter => parameter.TypesStand passed := by
  refine .behind _ fun start => .behind _ fun isPattern => .ite ?_ ?_
  · refine .behind _ fun pattern => .unless (.behind _ fun stop => ?_)
    exact reads_parameterFrom false start (by simp [Node.role]) (.inl rfl)
  · refine .bind (.of_finds (finds_nameNode .name)) fun _ name own => ?_
    refine (reads_parameterFrom typed start ?_ (.inr own.2)).imp fun _ _ stand _ => stand
    rw [own.1]
    decide

/-- A parameter has a type that stands on its tokens. -/
theorem reads_parameter (typed : Bool) :
    (parameter primary inner typed).Reads origin fun passed parameter => parameter.TypesStand passed := by
  have alone : ∀ {kind : Kind} {start : Mark},
      (do return .mk kind .part start (← behind) [] : Parse Node).Reads origin fun passed parameter =>
        parameter.TypesStand passed :=
    .behind _ fun _ => .pure fun _ => .of_leaf rfl
  refine .behind _ fun start => .behind _ fun slash => .ite alone ?_
  refine .behind _ fun stars => .ite (reads_splat _ typed start) ?_
  refine .behind _ fun star => .ite ?_ (reads_plainParameter typed)
  exact .behind _ fun symbol => .ite (reads_splat _ typed start) alone

end Parameters

end Nodes

end SourceOutline.Python
