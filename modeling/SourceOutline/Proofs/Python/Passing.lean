import SourceOutline.Proofs.Python.Spelling

/-! Every rule of the grammar moves over tokens from left to right. -/

namespace SourceOutline.Python

/-- The cursor has moved over some tokens: comments and joins among them have been put aside, and the last other one
is the last token taken. -/
structure Cursor.Passes (cursor moved : Cursor) (passed : List Token) : Prop where
  /-- The tokens are passed one after the other. -/
  tokens : cursor.tokens = passed ++ moved.tokens
  /-- Comments and joins are put aside. -/
  trivia : moved.trivia = (passed.filter fun token => token.symbol.isTrivia).reverse ++ cursor.trivia
  /-- The last token taken is the last one that is written. -/
  last : moved.last = ((passed.filter Token.isWritten).getLast?.map Token.stop).getD cursor.last

namespace Cursor.Passes

variable {cursor middle moved : Cursor} {passed later : List Token}

/-- Without tokens the cursor stays. -/
theorem refl (cursor : Cursor) : cursor.Passes cursor [] := ⟨rfl, rfl, rfl⟩

/-- Tokens are passed after others. -/
theorem trans (first : cursor.Passes middle passed) (second : middle.Passes moved later) :
    cursor.Passes moved (passed ++ later) := by
  refine ⟨by rw [first.tokens, second.tokens, List.append_assoc], ?_, ?_⟩
  · rw [second.trivia, first.trivia, List.filter_append, List.reverse_append, List.append_assoc]
  · rw [second.last, first.last, List.filter_append]
    cases written : later.filter Token.isWritten with
    | nil => simp
    | cons token rest => simp [List.getLast?_cons]

/-- A comment or a join is put aside. -/
theorem of_trivia {token : Token} {rest trivia : List Token} {last : Mark} {limit : Nat}
    (aside : token.symbol.isTrivia = true) :
    Cursor.Passes ⟨token :: rest, last, trivia, limit⟩ ⟨rest, last, token :: trivia, limit⟩ [token] :=
  ⟨rfl, by simp [aside], by simp [Token.isWritten, aside]⟩

end Cursor.Passes

/-- The comments and joins in front of tokens are passed. -/
theorem passes_settle (cursor : Cursor) : ∃ passed, cursor.Passes cursor.settle passed := by
  obtain ⟨tokens, last, trivia, limit⟩ := cursor
  induction tokens generalizing trivia with
  | nil => exact ⟨[], .refl _⟩
  | cons token rest ih =>
    cases aside : token.symbol.isTrivia with
    | true =>
      obtain ⟨later, passes⟩ := ih (token :: trivia)
      have same : (Cursor.mk (token :: rest) last trivia limit).settle =
          (Cursor.mk rest last (token :: trivia) limit).settle := by
        simp [Cursor.settle, passTrivia, aside]
      rw [same]
      exact ⟨_, (Cursor.Passes.of_trivia aside).trans passes⟩
    | false =>
      have same : (Cursor.mk (token :: rest) last trivia limit).settle = ⟨token :: rest, last, trivia, limit⟩ := by
        simp [Cursor.settle, passTrivia, aside]
      rw [same]
      exact ⟨[], .refl _⟩

/-- A parser moves over tokens. -/
class Parse.Moves {α : Type} (parser : Parse α) : Prop where
  /-- The tokens are passed. -/
  passes : ∀ {cursor value moved}, parser cursor = some (value, moved) → ∃ passed, cursor.Passes moved passed

/-- A parser takes at least one token. -/
class Parse.Takes {α : Type} (parser : Parse α) : Prop where
  /-- The tokens are passed, and one of them is written. -/
  passes : ∀ {cursor value moved}, parser cursor = some (value, moved) →
    ∃ passed, cursor.Passes moved passed ∧ ∃ token ∈ passed, token.isWritten = true

namespace Parse

variable {α β : Type}

instance moves_of_takes (parser : Parse α) [takes : Takes parser] : Moves parser :=
  ⟨fun run => (takes.passes run).imp fun _ both => both.1⟩

instance moves_pure (value : α) : Moves (pure value : Parse α) :=
  ⟨fun {cursor _ _} run => by cases run; exact ⟨[], .refl cursor⟩⟩

instance moves_bind (first : Parse β) (second : β → Parse α) [one : Moves first]
    [two : ∀ value, Moves (second value)] : Moves (first >>= second) := ⟨fun run => by
  obtain ⟨found, middle, here, behind⟩ := bind_eq_some.mp run
  obtain ⟨passed, passes⟩ := one.passes here
  obtain ⟨later, passes'⟩ := (two found).passes behind
  exact ⟨_, passes.trans passes'⟩⟩

instance takes_bind_second (first : Parse β) (second : β → Parse α) [one : Moves first]
    [two : ∀ value, Takes (second value)] : Takes (first >>= second) := ⟨fun run => by
  obtain ⟨found, middle, here, behind⟩ := bind_eq_some.mp run
  obtain ⟨passed, passes⟩ := one.passes here
  obtain ⟨later, passes', token, member, written⟩ := (two found).passes behind
  exact ⟨_, passes.trans passes', token, List.mem_append_right _ member, written⟩⟩

instance takes_bind_first (first : Parse β) (second : β → Parse α) [one : Takes first]
    [two : ∀ value, Moves (second value)] : Takes (first >>= second) := ⟨fun run => by
  obtain ⟨found, middle, here, behind⟩ := bind_eq_some.mp run
  obtain ⟨passed, passes, token, member, written⟩ := one.passes here
  obtain ⟨later, passes'⟩ := (two found).passes behind
  exact ⟨_, passes.trans passes', token, List.mem_append_left _ member, written⟩⟩

instance moves_ite (condition : Prop) [Decidable condition] (first second : Parse α) [one : Moves first]
    [two : Moves second] : Moves (if condition then first else second) := by
  split
  · exact one
  · exact two

instance takes_ite (condition : Prop) [Decidable condition] (first second : Parse α) [one : Takes first]
    [two : Takes second] : Takes (if condition then first else second) := by
  split
  · exact one
  · exact two

instance takes_fail : Takes (fail : Parse α) := ⟨fun run => by cases run⟩

instance moves_next : Moves next := ⟨fun {cursor _ _} run => by
  cases (next_eq cursor).symm.trans run
  exact passes_settle cursor⟩

instance moves_here : Moves here := ⟨fun {cursor _ _} run => by
  cases (here_eq cursor).symm.trans run
  exact passes_settle cursor⟩

instance moves_behind : Moves behind := ⟨fun {cursor _ _} run => by cases run; exact ⟨[], .refl cursor⟩⟩

instance moves_limit : Moves limit := ⟨fun {cursor _ _} run => by cases run; exact ⟨[], .refl cursor⟩⟩

instance moves_get : Moves (get : Parse Cursor) := ⟨fun {cursor _ _} run => by cases run; exact ⟨[], .refl cursor⟩⟩

instance moves_afterNext : Moves afterNext := ⟨fun {cursor _ moved} run => by
  have settled : moved = cursor.settle := by
    simp only [afterNext] at run
    split at run <;> (cases run; rfl)
  rw [settled]
  exact passes_settle cursor⟩

instance takes_take : Takes take := ⟨fun {cursor token _} run => by
  obtain ⟨passed, passes⟩ := passes_settle cursor
  have plain := (passTrivia_spec cursor.trivia cursor.tokens).2
  simp only [take] at run
  split at run
  · cases run
  · rename_i first rest tokens
    cases run
    have aside : token.symbol.isTrivia = false := plain token (by
      rw [show (passTrivia cursor.trivia cursor.tokens).2 = _ from tokens]
      rfl)
    have written : token.isWritten = true := by simp [Token.isWritten, aside]
    refine ⟨passed ++ [token], passes.trans ⟨tokens, ?_, ?_⟩, token, by simp, written⟩
    · simp [aside]
    · simp [written]⟩

instance moves_sees (text : String) : Moves (sees text) := by unfold sees; infer_instance

instance moves_seesAny (texts : List String) : Moves (seesAny texts) := by unfold seesAny; infer_instance

instance takes_expect (text : String) : Takes (expect text) := by unfold expect; infer_instance

instance moves_accept (text : String) : Moves (accept text) := by unfold accept; infer_instance

instance takes_symbol (expected : Symbol) : Takes (symbol expected) := by unfold symbol; infer_instance

/-- A word that is accepted is taken. -/
theorem passes_accept {text : String} {cursor moved : Cursor} (run : accept text cursor = some (true, moved)) :
    ∃ passed, cursor.Passes moved passed ∧ ∃ token ∈ passed, token.isWritten = true := by
  obtain ⟨seen, settled, asked, found⟩ := bind_eq_some.mp run
  obtain ⟨before, passes⟩ := (moves_sees text).passes asked
  cases seen with
  | false => cases found
  | true =>
    obtain ⟨token, further, took, same⟩ := bind_eq_some.mp found
    cases same
    obtain ⟨own, passes', token, member, written⟩ := takes_take.passes took
    exact ⟨_, passes.trans passes', token, List.mem_append_right _ member, written⟩

-- Where a word is accepted, it is a token taken; where it is not, another one must be.
instance takes_accept (text : String) (first second : Parse α) [one : Moves first] [two : Takes second] :
    Takes (accept text >>= fun given => if given = true then first else second) := ⟨fun run => by
  obtain ⟨given, middle, asked, found⟩ := bind_eq_some.mp run
  cases given with
  | true =>
    obtain ⟨passed, passes, token, member, written⟩ := passes_accept asked
    obtain ⟨later, passes'⟩ := one.passes found
    exact ⟨_, passes.trans passes', token, List.mem_append_left _ member, written⟩
  | false =>
    obtain ⟨passed, passes⟩ := (moves_accept text).passes asked
    obtain ⟨later, passes', token, member, written⟩ := two.passes found
    exact ⟨_, passes.trans passes', token, List.mem_append_right _ member, written⟩⟩

instance moves_attempt (parser : Parse α) [moves : Moves parser] : Moves (attempt parser) :=
  ⟨fun {cursor _ _} run => by
    unfold attempt at run
    split at run
    · rename_i found further tried
      cases run
      exact moves.passes tried
    · cases run
      exact ⟨[], .refl cursor⟩⟩

instance moves_repeatWhile (condition : Parse Bool) (parser : Parse α) [asks : Moves condition]
    [moves : Moves parser] : Moves (repeatWhile condition parser) := by
  have each : ∀ (fuel : Nat) {done found : List α} {cursor moved : Cursor},
      repeatFrom condition parser done fuel cursor = some (found, moved) →
        ∃ passed, cursor.Passes moved passed := by
    intro fuel
    induction fuel with
    | zero => exact fun run => by cases run
    | succ fuel ih =>
      intro done found cursor moved run
      rw [repeatFrom] at run
      split at run
      · cases run
      · rename_i asked
        cases run
        exact asks.passes asked
      · rename_i asked
        split at run
        · cases run
        · rename_i value further parsed
          obtain ⟨first, passes⟩ := asks.passes asked
          obtain ⟨second, passes'⟩ := moves.passes parsed
          obtain ⟨later, passes''⟩ := ih run
          exact ⟨_, (passes.trans passes').trans passes''⟩
  exact ⟨each _⟩

instance moves_commaSeparated (ends : Parse Bool) (item : Parse α) [Moves ends] [Moves item] :
    Moves (commaSeparated ends item) := by unfold commaSeparated; infer_instance

/-- When there are items, at least one token is taken for them. -/
theorem passes_commaSeparated {ends : Parse Bool} {item : Parse α} [asks : Moves ends] [takes : Takes item]
    {cursor moved : Cursor} {found : List α × Bool} (run : commaSeparated ends item cursor = some (found, moved))
    (given : found.1 ≠ []) : ∃ passed, cursor.Passes moved passed ∧ ∃ token ∈ passed, token.isWritten = true := by
  obtain ⟨ended, middle, asked, others⟩ := bind_eq_some.mp run
  obtain ⟨before, passes⟩ := asks.passes asked
  cases ended with
  | true =>
    cases others
    exact absurd rfl given
  | false =>
    obtain ⟨first, settled, parsed, further⟩ := bind_eq_some.mp others
    obtain ⟨own, passes', token, member, written⟩ := takes.passes parsed
    have rest : Moves (do
        let comma ← sees ","
        let later ← repeatWhile (do if ← accept "," then return !(← ends) else return false) item
        return (first :: later, comma) : Parse (List α × Bool)) := inferInstance
    obtain ⟨later, passes''⟩ := rest.passes further
    exact ⟨_, (passes.trans passes').trans passes'', token, by simp [member], written⟩

instance takes_identifier : Takes identifier := by unfold identifier; infer_instance

instance takes_nameNode (role : Role) : Takes (nameNode role) := by unfold nameNode; infer_instance

instance moves_node (kind : Kind) (role : Role) (children : Parse (List Node)) [Moves children] :
    Moves (node kind role children) := by unfold node; infer_instance

instance takes_node (kind : Kind) (role : Role) (children : Parse (List Node)) [Takes children] :
    Takes (node kind role children) := by unfold node; infer_instance

instance takes_expressionNode (role : Role) (parser : Parse Expression) [Takes parser] :
    Takes (expressionNode role parser) := by unfold expressionNode; infer_instance

instance takes_kept (parser : Parse Expression) [Takes parser] : Takes (kept parser) := by unfold kept; infer_instance

instance moves_withTrivia (parser : Parse Node) [Moves parser] : Moves parser.withTrivia := by
  unfold Parse.withTrivia; infer_instance

instance moves_seesClause : Moves seesClause := by unfold seesClause; infer_instance

end Parse

open Parse

-- The rules of the grammar are put together from parsers that move, and instances are found along their texts.
set_option synthInstance.maxSize 20000

section Expressions

variable (inner primary items : Parse Expression) [Takes inner] [Takes primary] [Takes items]

instance takes_replacementField (nested : Parse Node) [Takes nested] : Takes (replacementField nested items) := by
  unfold replacementField; dsimp only; infer_instance

instance takes_fieldAt (depth : Nat) : Takes (fieldAt items depth) := by
  induction depth with
  | zero => exact takes_fail
  | succ depth ih => exact takes_replacementField items (fieldAt items depth)

instance takes_stringNode : Takes (stringNode items) := by
  refine @takes_node _ _ _ (@takes_bind_first _ _ take _ _ fun opening => ?_)
  dsimp only
  split <;> infer_instance

instance moves_seesString : Moves seesString := by
  refine @moves_bind _ _ next _ _ fun symbol => ?_
  split <;> infer_instance

instance takes_strings : Takes (strings items) := by unfold strings; infer_instance

instance moves_seesTrailer : Moves seesTrailer := by unfold seesTrailer; infer_instance

instance moves_slice : Moves (slice inner) := by unfold slice; dsimp only; infer_instance

instance takes_argument : Takes (argument inner) := by unfold argument; infer_instance

instance takes_signed : Takes (signed primary) := by unfold signed; infer_instance

instance takes_arithmetic : Takes (arithmetic primary) := by unfold arithmetic; infer_instance

instance moves_seesComparison : Moves seesComparison := by unfold seesComparison; infer_instance

instance moves_comparisonOperator : Moves comparisonOperator := by unfold comparisonOperator; infer_instance

instance takes_comparison : Takes (comparison primary) := by unfold comparison; infer_instance

instance takes_negation : Takes (negation primary) := by unfold negation; infer_instance

instance takes_disjunction : Takes (disjunction primary) := by unfold disjunction; infer_instance

instance takes_starOr (plain : Parse Expression) [Takes plain] : Takes (starOr primary plain) := by
  unfold starOr; infer_instance

instance moves_targets : Moves (targets primary) := by unfold targets; infer_instance

instance takes_comprehensionClause : Takes (comprehensionClause primary) := by
  unfold comprehensionClause; infer_instance

instance moves_comprehension (collected : List Expression) : Moves (comprehension primary collected) := by
  unfold comprehension; dsimp only; infer_instance

instance takes_furtherItems (closing : String) (item : Parse Expression) [Takes item] :
    Takes (furtherItems closing item) := by unfold furtherItems; infer_instance

instance takes_parenthesized (yielded : Parse Expression) [Takes yielded] :
    Takes (parenthesized primary inner yielded) := by unfold parenthesized; dsimp only; infer_instance

instance takes_bracketed : Takes (bracketed primary inner) := by unfold bracketed; dsimp only; infer_instance

instance takes_entry : Takes (entry primary inner) := by unfold entry; infer_instance

instance takes_braced : Takes (braced primary inner) := by unfold braced; dsimp only; infer_instance

instance takes_callArguments : Takes (callArguments primary inner) := by
  unfold callArguments; dsimp only; infer_instance

instance takes_plainArguments : Takes (plainArguments inner) := by unfold plainArguments; infer_instance

instance takes_trailer : Takes (trailer primary inner) := by unfold trailer; infer_instance

instance takes_typeNode (role : Role) : Takes (typeNode inner role) := by unfold typeNode; infer_instance

instance moves_typeBehind (typed : Bool) : Moves (typeBehind inner typed) := by unfold typeBehind; infer_instance

instance takes_splat (kind : Kind) (typed : Bool) (start : Mark) : Takes (splat inner kind typed start) := by
  unfold splat; infer_instance

instance moves_parameterFrom (typed : Bool) (start : Mark) (name : Node) :
    Moves (parameterFrom inner typed start name) := by unfold parameterFrom; infer_instance

instance takes_plainParameter (typed : Bool) : Takes (plainParameter primary inner typed) := by
  unfold plainParameter; infer_instance

instance takes_parameter (typed : Bool) : Takes (parameter primary inner typed) := by unfold parameter; infer_instance

instance takes_lambdaExpression : Takes (lambdaExpression primary inner) := by
  unfold lambdaExpression; dsimp only; infer_instance

instance takes_yieldExpression : Takes (yieldExpression inner items) := by unfold yieldExpression; infer_instance

instance takes_itemList (item : Parse Expression) [Takes item] : Takes (itemList item) := ⟨fun run => by
  obtain ⟨found, middle, parsed, rest⟩ := bind_eq_some.mp run
  obtain ⟨values, comma⟩ := found
  cases values with
  | nil => cases rest
  | cons first later =>
    obtain ⟨passed, passes, some_token⟩ := passes_commaSeparated parsed (List.cons_ne_nil first later)
    cases later <;> cases comma <;> (cases rest; exact ⟨passed, passes, some_token⟩)⟩

instance takes_atom : Takes (atom inner primary) := by
  refine @takes_bind_second _ _ next _ _ fun symbol => ?_
  dsimp only
  split <;> infer_instance

instance takes_withTrailers : Takes (withTrailers inner primary) := by
  refine @takes_bind_first _ _ (atom inner primary) _ _ fun value => @moves_bind _ _ _ _ _ fun later => ?_
  split <;> infer_instance

instance takes_awaited : Takes (awaited inner primary) := by
  have tried : Takes (do
      let found ← attempt do
        expect "await"
        withTrailers inner primary
      match found with
      | some value => return .combine [value]
      | none => withTrailers inner primary : Parse Expression) := ⟨fun {cursor _ _} run => by
    obtain ⟨found, middle, asked, rest⟩ := bind_eq_some.mp run
    unfold attempt at asked
    split at asked
    · rename_i value further parsed
      cases asked
      cases rest
      exact takes_bind_first (expect "await") (fun _ => withTrailers inner primary) |>.passes parsed
    · cases asked
      exact takes_withTrailers inner primary |>.passes rest⟩
  unfold awaited
  infer_instance

instance takes_primaryAt (depth : Nat) : Takes (primaryAt inner depth) := by
  induction depth with
  | zero => exact takes_fail
  | succ depth ih => exact takes_awaited inner (primaryAt inner depth)

instance takes_expressionWith : Takes (expressionWith inner primary) := by unfold expressionWith; infer_instance

end Expressions

instance takes_expressionAt (depth : Nat) : Takes (expressionAt depth) := by
  induction depth with
  | zero => exact takes_fail
  | succ depth ih =>
    exact ⟨fun {cursor _ _} run =>
      takes_expressionWith (expressionAt depth) (primaryAt (expressionAt depth) cursor.limit) |>.passes run⟩

instance takes_expression : Takes expression := ⟨fun run => (takes_expressionAt _).passes run⟩

instance takes_primary : Takes primary := ⟨fun run => (takes_primaryAt expression _).passes run⟩

instance takes_item : Takes item := by unfold item; infer_instance

instance takes_items : Takes items := by unfold items; infer_instance

section Statements

instance takes_dottedName : Takes dottedName := by unfold dottedName; infer_instance

instance takes_modulePath : Takes modulePath := takes_dottedName

instance takes_renamed (name : Parse Unit) [Takes name] : Takes (renamed name) := by unfold renamed; infer_instance

instance moves_namesToEnd (name : Parse Unit) [Takes name] : Moves (namesToEnd name) := by
  unfold namesToEnd; infer_instance

instance takes_importModules : Takes importModules := by unfold importModules; infer_instance

instance takes_importNames : Takes importNames := by unfold importNames; dsimp only; infer_instance

instance takes_assigned : Takes assigned := by unfold assigned; infer_instance

instance moves_assignments : Moves assignments := by unfold assignments; infer_instance

instance takes_formedNode : Takes formedNode := by unfold formedNode; infer_instance

instance moves_expressions : Moves expressions := by unfold expressions; dsimp only; infer_instance

instance takes_printStatement : Takes printStatement := by unfold printStatement; dsimp only; infer_instance

instance takes_execStatement : Takes execStatement := by unfold execStatement; dsimp only; infer_instance

instance moves_typeParameters : Moves typeParameters := by unfold typeParameters; dsimp only; infer_instance

instance takes_typeAlias : Takes typeAlias := by unfold typeAlias; infer_instance

instance takes_raiseStatement : Takes raiseStatement := by unfold raiseStatement; dsimp only; infer_instance

instance takes_assertStatement : Takes assertStatement := by unfold assertStatement; infer_instance

instance takes_deleteStatement : Takes deleteStatement := by unfold deleteStatement; infer_instance

instance moves_seesPrint : Moves seesPrint := by unfold seesPrint; infer_instance

instance moves_simpleStatement : Moves simpleStatement := by
  refine @moves_bind _ _ next _ _ fun symbol => ?_
  -- Only a print statement of the old form is tried before anything else is.
  have tried : ∀ found, Moves (match found with
      | some statement => pure statement
      | none => (node .expressionStatement .part expressions).withTrivia : Parse Node) := by
    intro found
    split <;> infer_instance
  split <;> infer_instance

instance moves_simpleLine : Moves simpleLine := by unfold simpleLine; infer_instance

end Statements

end SourceOutline.Python
