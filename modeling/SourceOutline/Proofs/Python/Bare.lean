import SourceOutline.Proofs.Python.Heads

/-! What stands on a line beside its header holds no definitions, clauses and blocks. -/

namespace SourceOutline.Python

/-- Only headers, decorators and the lines below them make nodes of the kind. -/
def Kind.isCompound : Kind → Bool
  | .module | .functionDefinition | .classDefinition | .decoratedDefinition | .clause | .block => true
  | _ => false

/-- Definitions are made by headers and decorators. -/
theorem isCompound_of_defines {kind : Kind} (defines : kind.defines = true) : kind.isCompound = true := by
  cases kind <;> first | rfl | cases defines

/-- Only what stands below a header or a decorator is in the role. -/
def Role.isLower : Role → Bool
  | .body | .definition => true
  | _ => false

/-- Parts of expressions and of statements without a body are in the role. -/
def Role.isInner : Role → Bool
  | .part | .name | .type => true
  | _ => false

/-- What is no part of a header stands below none. -/
theorem isLower_of_isInner {role : Role} (inner : role.isInner = true) : role.isLower = false := by
  cases role <;> first | rfl | cases inner

/-- A node that needs no header and is no part of one, with all its parts at any depth. -/
inductive Node.Bare : Node → Prop where
  /-- The node needs no header, is no part of one, and its parts are bare. -/
  | mk {node : Node} (plain : node.kind.isCompound = false) (inside : node.role.isInner = true)
    (parts : ∀ part ∈ node.children, part.Bare) : node.Bare

/-- Nodes that are bare one by one. -/
def AllBare (nodes : List Node) : Prop := ∀ node ∈ nodes, node.Bare

/-- A bare node needs no header. -/
theorem Node.Bare.plain {node : Node} (bare : node.Bare) : node.kind.isCompound = false := by
  cases bare with
  | mk plain inside parts => exact plain

/-- A bare node is no part of a header. -/
theorem Node.Bare.inside {node : Node} (bare : node.Bare) : node.role.isInner = true := by
  cases bare with
  | mk plain inside parts => exact inside

/-- The parts of a bare node are bare. -/
theorem Node.Bare.children {node : Node} (bare : node.Bare) : AllBare node.children := by
  cases bare with
  | mk plain inside parts => exact parts

/-- A node that needs no header is bare when its parts are. -/
theorem Node.Bare.of_parts {kind : Kind} {role : Role} {start stop : Mark} {parts : List Node}
    (plain : kind.isCompound = false) (inside : role.isInner = true) (bare : AllBare parts) :
    (Node.mk kind role start stop parts).Bare :=
  .mk plain inside bare

/-- A bare node is bare in any role of a part. -/
theorem Node.Bare.inRole {node : Node} (bare : node.Bare) {role : Role} (inside : role.isInner = true) :
    (node.inRole role).Bare := by
  cases node
  exact .mk bare.plain inside bare.children

/-- A node in a role that needs no header itself and is made of bare parts. -/
structure Node.IsPart (role : Role) (node : Node) : Prop where
  /-- The node needs no header. -/
  plain : node.kind.isCompound = false
  /-- It is in the role. -/
  role : node.role = role
  /-- Its parts are bare. -/
  parts : AllBare node.children

/-- The parts of a header: nodes that stand below no header, made of bare parts. -/
def AllParts (nodes : List Node) : Prop := ∀ node ∈ nodes, ∃ role, role.isLower = false ∧ node.IsPart role

/-- A node in a role of an expression is bare when its parts are. -/
theorem Node.IsPart.bare {role : Role} {node : Node} (part : node.IsPart role) (inside : role.isInner = true) :
    node.Bare := .mk part.plain (part.role ▸ inside) part.parts

/-- A node above all bodies may be part of a header. -/
theorem Node.IsPart.alone {role : Role} {node : Node} (part : node.IsPart role) (upper : role.isLower = false) :
    AllParts [node] := List.forall_mem_singleton.mpr ⟨role, upper, part⟩

/-- Bare nodes may be parts of a header. -/
theorem AllBare.allParts {nodes : List Node} (bare : AllBare nodes) : AllParts nodes := fun node member =>
  ⟨node.role, isLower_of_isInner (bare node member).inside, (bare node member).plain, rfl, (bare node member).children⟩

/-- Parts of a header stand behind others. -/
theorem AllParts.append {front back : List Node} (first : AllParts front) (later : AllParts back) :
    AllParts (front ++ back) := List.forall_mem_append.mpr ⟨first, later⟩

/-- No nodes are bare. -/
theorem allBare_nil : AllBare [] := fun _ member => absurd member List.not_mem_nil

/-- A node is bare when it is so alone. -/
theorem Node.Bare.alone {node : Node} (bare : node.Bare) : AllBare [node] := List.forall_mem_singleton.mpr bare

/-- Bare nodes behind a bare one are bare. -/
theorem AllBare.cons {node : Node} {rest : List Node} (first : node.Bare) (later : AllBare rest) :
    AllBare (node :: rest) := List.forall_mem_cons.mpr ⟨first, later⟩

/-- Bare nodes behind others are bare. -/
theorem AllBare.append {front back : List Node} (first : AllBare front) (later : AllBare back) :
    AllBare (front ++ back) := List.forall_mem_append.mpr ⟨first, later⟩

/-- Bare nodes put together are bare. -/
theorem AllBare.flatMap {α : Type} {values : List α} {parts : α → List Node}
    (each : ∀ value ∈ values, AllBare (parts value)) : AllBare (values.flatMap parts) := by
  intro node member
  obtain ⟨value, above, member⟩ := List.mem_flatMap.mp member
  exact each value above node member

/-- Bare nodes put together are bare. -/
theorem AllBare.flatten {lists : List (List Node)} (each : ∀ list ∈ lists, AllBare list) :
    AllBare lists.flatten := by
  intro node member
  obtain ⟨list, above, member⟩ := List.mem_flatten.mp member
  exact each list above node member

/-- The parts of bare nodes are bare. -/
theorem AllBare.children {nodes : List Node} (bare : AllBare nodes) : AllBare (nodes.flatMap Node.children) :=
  .flatMap fun node member => (bare node member).children

/-- An expression whose node is bare. -/
structure Expression.Bare (expression : Expression) : Prop where
  /-- The node needs no header. -/
  plain : expression.kind.isCompound = false
  /-- Its parts are bare. -/
  parts : AllBare expression.parts

namespace Expression

/-- What is kept of a bare expression is bare. -/
theorem Bare.inside {expression : Expression} (bare : expression.Bare) : AllBare expression.inside := by
  unfold Expression.inside
  split
  · exact bare.parts.children
  · rw [← List.flatMap_assoc]
    exact bare.parts.children.children
  · exact bare.parts

/-- An expression of bare parts is bare, whatever it looks like from outside. -/
theorem Bare.of_parts {form : Form} {parts : List Node} (bare : AllBare parts) :
    Bare { form := form, parts := parts } := ⟨rfl, bare⟩

/-- The form of an expression does not matter. -/
theorem Bare.withForm {expression : Expression} (bare : expression.Bare) (form : Form) :
    Bare { expression with form := form } := ⟨bare.plain, bare.parts⟩

/-- An expression made of bare ones is bare. -/
theorem bare_combine {operands : List Expression} (bare : ∀ operand ∈ operands, operand.Bare) :
    (combine operands).Bare := .of_parts (.flatMap fun operand member => (bare operand member).inside)

/-- An expression made of a bare one is bare. -/
theorem Bare.combine {expression : Expression} (bare : expression.Bare) : (combine [expression]).Bare :=
  bare_combine (List.forall_mem_singleton.mpr bare)

/-- Bare expressions side by side are bare. -/
theorem bare_sequence {operands : List Expression} (bare : ∀ operand ∈ operands, operand.Bare) :
    (sequence operands).Bare := (bare_combine bare).withForm _

/-- An expression is as bare as the others are with it when they are combined, or else alone. -/
theorem bare_chain {first : Expression} {later : List Expression} (bare : first.Bare)
    (others : ∀ operand ∈ later, operand.Bare) :
    (if later.isEmpty then first else Expression.combine (first :: later)).Bare := by
  split
  · exact bare
  · exact bare_combine (List.forall_mem_cons.mpr ⟨bare, others⟩)

end Expression

namespace Parse

variable {α : Type} {good : α → Prop}

/-- A failure finds nothing. -/
theorem Finds.fail : (fail : Parse α).Finds good := fun _ _ _ found => by cases found

/-- What follows a check is found when the check succeeds. -/
theorem Finds.unless {refused : Prop} [Decidable refused] {rest : Unit → Parse α} (finds : (rest ()).Finds good) :
    (if refused then Parse.fail >>= rest else rest ()).Finds good := by
  split
  · have failed : (Parse.fail : Parse Unit).Finds fun _ => False := .fail
    exact .bind failed fun _ => False.elim
  · exact finds

/-- What follows either of two parsers may use what that one finds. -/
theorem Finds.either {β : Type} {fine : β → Prop} {condition : Prop} [Decidable condition] {first second : Parse β}
    (given : first.Finds fine) (given' : second.Finds fine) {rest : β → Parse α}
    (finds : ∀ value, fine value → (rest value).Finds good) :
    (if condition then first >>= rest else second >>= rest).Finds good := by
  split
  · exact .bind given finds
  · exact .bind given' finds

/-- Items with commas between them are good when each item is. -/
theorem Finds.commaSeparated (ends : Parse Bool) {item : Parse α} (finds : item.Finds good) :
    (commaSeparated ends item).Finds fun found => ∀ value ∈ found.1, good value := by
  refine .behind ends fun ended => ?_
  split
  · exact .pure (by simp)
  · refine .bind finds fun first here => .behind _ fun comma => ?_
    refine .bind (.repeatWhile _ finds) fun later others => .pure ?_
    exact List.forall_mem_cons.mpr ⟨here, others⟩

/-- A node is found in its role with its parts. -/
theorem part_node {kind : Kind} (plain : kind.isCompound = false) {role : Role} {children : Parse (List Node)}
    (finds : children.Finds AllBare) : (node kind role children).Finds (Node.IsPart role) :=
  .behind here fun _ => .bind finds fun _ parts => .behind behind fun _ => .pure ⟨plain, rfl, parts⟩

/-- A node of bare parts is bare. -/
theorem bare_node {kind : Kind} (plain : kind.isCompound = false) {role : Role} (inside : role.isInner = true)
    {children : Parse (List Node)} (finds : children.Finds AllBare) : (node kind role children).Finds Node.Bare :=
  fun cursor value moved run => (part_node plain finds cursor value moved run).bare inside

/-- A name is bare. -/
theorem bare_nameNode {role : Role} (inside : role.isInner = true) : (nameNode role).Finds Node.Bare :=
  .behind identifier fun _ => .pure (.of_parts rfl inside allBare_nil)

/-- The node of an expression is found in its role with the parts of the expression. -/
theorem part_expressionNode {role : Role} {parser : Parse Expression} (finds : parser.Finds Expression.Bare) :
    (expressionNode role parser).Finds (Node.IsPart role) :=
  .behind here fun _ => .bind finds fun _ bare => .behind behind fun _ => .pure ⟨bare.plain, rfl, bare.parts⟩

/-- The node of a bare expression is bare. -/
theorem bare_expressionNode {role : Role} (inside : role.isInner = true) {parser : Parse Expression}
    (finds : parser.Finds Expression.Bare) : (expressionNode role parser).Finds Node.Bare :=
  fun cursor value moved run => (part_expressionNode finds cursor value moved run).bare inside

/-- What is kept of a bare expression is bare. -/
theorem bare_kept {parser : Parse Expression} (finds : parser.Finds Expression.Bare) :
    (kept parser).Finds AllBare :=
  .bind finds fun _ bare => .pure bare.inside

/-- A part that may be missing leaves what follows good. -/
theorem part_optional {given : Prop} [Decidable given] {role : Role} (upper : role.isLower = false)
    {parser : Parse Node} (finds : parser.Finds (Node.IsPart role)) {rest : List Node → Parse α}
    (others : ∀ nodes, AllParts nodes → (rest nodes).Finds good) :
    (if given then parser >>= fun node => pure [node] >>= rest else pure [] >>= rest).Finds good :=
  .ite (.bind finds fun _ part => .bind (.pure (part.alone upper)) others) (.bind (.pure allBare_nil.allParts) others)

end Parse

section Grammar

open Parse

variable {inner items : Parse Expression}

/-- A replacement field is bare. -/
theorem bare_replacementField {nested : Parse Node} (fields : nested.Finds Node.Bare)
    (expressions : items.Finds Expression.Bare) : (replacementField nested items).Finds Node.Bare := by
  refine bare_node rfl rfl (.behind _ fun _ => .bind (bare_kept expressions) fun shown parts => ?_)
  refine .behind _ fun _ => .behind _ fun symbol => ?_
  extract_lets close format
  have closes : ∀ found, AllBare found → (close found).Finds AllBare := fun found nested =>
    .behind _ fun _ => .pure (parts.append nested.children)
  have formats : ∀ settled, (format settled).Finds AllBare := by
    refine fun settled => .behind _ fun symbol => ?_
    split
    · exact .behind _ fun _ => .bind (.repeatWhile _ fields) closes
    · exact .bind (.pure allBare_nil) closes
  split
  · exact .behind _ formats
  · exact formats ()

/-- A replacement field with others in its format is bare. -/
theorem bare_fieldAt (expressions : items.Finds Expression.Bare) (depth : Nat) :
    Parse.Finds (fieldAt items depth) Node.Bare := by
  induction depth with
  | zero => exact .fail
  | succ depth ih => exact bare_replacementField ih expressions

/-- A string literal is bare. -/
theorem bare_stringNode (expressions : items.Finds Expression.Bare) : (stringNode items).Finds Node.Bare := by
  refine bare_node rfl rfl (.behind _ fun opening => ?_)
  extract_lets rest
  have finds : ∀ settled, (rest settled).Finds AllBare := by
    refine fun settled => .behind _ fun depth => ?_
    refine .bind (.repeatWhile _ (bare_fieldAt expressions depth)) fun fields bare => .behind _ fun closing => ?_
    exact .unless (.pure ((AllBare.cons (.of_parts rfl rfl allBare_nil) bare).append
      (Node.Bare.of_parts rfl rfl allBare_nil).alone))
  split
  · exact finds ()
  · exact .behind _ finds

/-- String literals side by side are bare. -/
theorem bare_strings (expressions : items.Finds Expression.Bare) : (strings items).Finds Expression.Bare := by
  refine .bind (bare_stringNode expressions) fun first bare => ?_
  refine .bind (.repeatWhile _ (bare_stringNode expressions)) fun later others => ?_
  exact .ite (.pure ⟨rfl, bare.children⟩) (.pure ⟨rfl, .cons bare others⟩)

/-- An index or a slice is bare. -/
theorem bare_slice (inners : inner.Finds Expression.Bare) : (slice inner).Finds Expression.Bare := by
  -- Each part is missing or an expression.
  have part : ∀ {rest : List Expression → Parse Expression} {missing : Bool},
      (∀ operands : List Expression, (∀ operand ∈ operands, operand.Bare) →
        (rest operands).Finds Expression.Bare) →
      (if missing = true then pure [] >>= rest
        else inner >>= fun operand => pure [operand] >>= rest : Parse Expression).Finds Expression.Bare := by
    intro rest missing finds
    split
    · exact .bind (.pure (by simp)) finds
    · exact .bind inners fun operand bare => .bind (.pure (by simpa using bare)) finds
  refine .behind _ fun star => .ite (.bind inners fun value bare => .pure bare.combine) ?_
  refine .behind _ fun _ => part fun first firsts => .behind _ fun _ => ?_
  refine .ite (.pure (Expression.bare_combine firsts)) ?_
  refine .behind _ fun _ => part fun second seconds => .behind _ fun _ => ?_
  have both := List.forall_mem_append.mpr ⟨firsts, seconds⟩
  refine .ite (.pure (Expression.bare_combine both)) ?_
  refine .behind _ fun _ => part fun third thirds => .pure (Expression.bare_combine ?_)
  exact List.forall_mem_append.mpr ⟨both, thirds⟩

/-- An argument is bare. -/
theorem bare_argument (inners : inner.Finds Expression.Bare) : (argument inner).Finds Node.Bare := by
  refine .behind _ fun symbol => .behind _ fun second => .ite ?_ ?_
  · exact bare_node rfl rfl (.behind _ fun _ => .behind _ fun _ => bare_kept inners)
  · refine bare_expressionNode rfl (.behind _ fun starred => .ite ?_ inners)
    exact .behind _ fun _ => .bind inners fun value bare => .pure bare.combine

end Grammar

section Operators

open Parse

variable {primary : Parse Expression} (primaries : primary.Finds Expression.Bare)

include primaries

/-- An operand with signs is bare. -/
theorem bare_signed : (signed primary).Finds Expression.Bare := by
  refine .behind _ fun signs => .bind primaries fun operand bare => .pure ?_
  split
  · exact bare
  · exact bare.combine

/-- Operands with operators between them are bare. -/
theorem bare_arithmetic : (arithmetic primary).Finds Expression.Bare :=
  .bind (bare_signed primaries) fun _ bare =>
    .bind (.repeatWhile _ (.behind _ fun _ => bare_signed primaries)) fun _ others =>
      .pure (Expression.bare_chain bare others)

/-- Operands with comparisons between them are bare. -/
theorem bare_comparison : (comparison primary).Finds Expression.Bare :=
  .bind (bare_arithmetic primaries) fun _ bare =>
    .bind (.repeatWhile _ (.behind _ fun _ => bare_arithmetic primaries)) fun _ others =>
      .pure (Expression.bare_chain bare others)

/-- A negation is bare. -/
theorem bare_negation : (negation primary).Finds Expression.Bare := by
  refine .behind _ fun signs => .bind (bare_comparison primaries) fun operand bare => .pure ?_
  split
  · exact bare
  · exact bare.combine

/-- Negations with logical operators between them are bare. -/
theorem bare_disjunction : (disjunction primary).Finds Expression.Bare :=
  .bind (bare_negation primaries) fun _ bare =>
    .bind (.repeatWhile _ (.behind _ fun _ => bare_negation primaries)) fun _ others =>
      .pure (Expression.bare_chain bare others)

/-- An expression that may stand behind a star is bare. -/
theorem bare_starOr {plain : Parse Expression} (finds : plain.Finds Expression.Bare) :
    (starOr primary plain).Finds Expression.Bare :=
  .behind _ fun _ => .ite (.bind (bare_arithmetic primaries) fun _ bare => .pure (bare.combine.withForm _)) finds

/-- Targets are bare. -/
theorem bare_targets : (targets primary).Finds AllBare := by
  have target := bare_starOr primaries (bare_arithmetic primaries)
  refine .bind (.commaSeparated _ target) fun found bare => .ite (.pure ?_) .fail
  exact .flatMap fun operand member => (bare operand member).inside

/-- A clause of a comprehension is bare. -/
theorem bare_comprehensionClause : (comprehensionClause primary).Finds AllBare := by
  have operand := bare_kept (bare_disjunction primaries)
  refine .behind _ fun _ => .behind _ fun _ => .bind (bare_targets primaries) fun bound bounds => ?_
  refine .behind _ fun _ => .bind operand fun iterated bare => ?_
  refine .bind (.repeatWhile _ (.behind _ fun _ => operand)) fun conditions others => .pure ?_
  exact (bounds.append bare).append (.flatten others)

/-- A comprehension of what is bare is bare. -/
theorem bare_comprehension {collected : List Expression} (bare : ∀ value ∈ collected, value.Bare) :
    (comprehension primary collected).Finds Expression.Bare := by
  unfold comprehension
  refine .unless (.bind (.repeatWhile _ (bare_comprehensionClause primaries)) fun clauses others => ?_)
  refine .pure (.of_parts (.append ?_ (.flatten others)))
  exact .flatMap fun value member => (bare value member).inside

end Operators

section Displays

open Parse

variable {primary inner : Parse Expression} (primaries : primary.Finds Expression.Bare)
  (inners : inner.Finds Expression.Bare)

/-- Items up to a closing bracket are bare. -/
theorem bare_furtherItems (closing : String) {item : Parse Expression} (finds : item.Finds Expression.Bare) :
    (furtherItems closing item).Finds fun found => ∀ value ∈ found, value.Bare := by
  refine .behind _ fun comma => .either (.commaSeparated _ finds) (.pure (by simp)) fun found bare => ?_
  exact .behind _ fun _ => .pure bare

include primaries inners

/-- What stands in parentheses is bare. -/
theorem bare_parenthesized {yielded : Parse Expression} (yields : yielded.Finds Expression.Bare) :
    (parenthesized primary inner yielded).Finds Expression.Bare := by
  have item := bare_starOr primaries inners
  refine .behind _ fun _ => .behind _ fun _ => .ite (.pure (Expression.bare_sequence (by simp))) ?_
  refine .behind _ fun _ => .ite (.bind yields fun _ bare => .behind _ fun _ => .pure bare.combine) ?_
  refine .bind item fun first bare => .behind _ fun _ => .ite ?_ ?_
  · have alone : ∀ value ∈ [first], value.Bare := by simpa using bare
    exact .bind (bare_comprehension primaries alone) fun _ found => .behind _ fun _ => .pure found
  · refine .behind _ fun comma => .bind (bare_furtherItems ")" item) fun later others => .ite (.pure ?_) ?_
    · exact Expression.bare_sequence (List.forall_mem_cons.mpr ⟨bare, others⟩)
    · exact .unless (.pure (bare.combine.withForm _))

/-- A list is bare. -/
theorem bare_bracketed : (bracketed primary inner).Finds Expression.Bare := by
  have item := bare_starOr primaries inners
  refine .behind _ fun _ => .behind _ fun _ => .ite (.pure (Expression.bare_sequence (by simp))) ?_
  refine .bind item fun first bare => .behind _ fun _ => .ite ?_ ?_
  · have alone : ∀ value ∈ [first], value.Bare := by simpa using bare
    exact .bind (bare_comprehension primaries alone) fun _ found => .behind _ fun _ => .pure found
  · refine .bind (bare_furtherItems "]" item) fun later others => .pure ?_
    exact Expression.bare_sequence (List.forall_mem_cons.mpr ⟨bare, others⟩)

/-- An entry of a dictionary is bare. -/
theorem bare_entry : (entry primary inner).Finds Expression.Bare := by
  refine .behind _ fun _ => .ite (.bind (bare_arithmetic primaries) fun _ bare => .pure bare.combine) ?_
  refine .bind inners fun key bare => .behind _ fun _ => .bind inners fun value other => .pure ?_
  exact Expression.bare_combine (by simpa using ⟨bare, other⟩)

/-- A dictionary or a set is bare. -/
theorem bare_braced : (braced primary inner).Finds Expression.Bare := by
  have item := bare_starOr primaries inners
  have pair := bare_entry primaries inners
  refine .behind _ fun _ => .behind _ fun _ => .ite (.pure (.of_parts allBare_nil)) (.behind _ fun _ => .ite ?_ ?_)
  · refine .bind pair fun first bare => .bind (bare_furtherItems _ pair) fun later others => .pure ?_
    exact Expression.bare_combine (List.forall_mem_cons.mpr ⟨bare, others⟩)
  · refine .bind item fun first bare => .behind _ fun isEntry => ?_
    extract_lets further rest
    have finds : ∀ held, (∀ value ∈ held, value.Bare) → (rest held).Finds Expression.Bare := by
      refine fun held bares => .behind _ fun _ => .ite ?_ ?_
      · exact .bind (bare_comprehension primaries bares) fun _ found => .behind _ fun _ => .pure found
      · refine .bind (bare_furtherItems _ (.ite pair item)) fun later others => .pure ?_
        exact Expression.bare_combine (List.forall_mem_append.mpr ⟨bares, others⟩)
    split
    · refine .bind inners fun value other => .bind (.pure ?_) finds
      simpa using ⟨bare, other⟩
    · exact .bind (.pure (by simpa using bare)) finds

/-- The arguments of a call are bare. -/
theorem bare_callArguments : (callArguments primary inner).Finds AllBare := by
  have argument := bare_argument inners
  refine .behind _ fun _ => .behind _ fun _ => .ite (.pure allBare_nil) ?_
  refine .bind argument fun first bare => .behind _ fun _ => .ite (.unless ?_) ?_
  · refine .bind (bare_comprehension primaries (by simp)) fun generator found => ?_
    exact .behind _ fun _ => .behind _ fun _ => .pure (.cons bare (Node.Bare.of_parts rfl rfl found.parts).alone)
  · refine .behind _ fun _ => .either (.commaSeparated _ argument) (.pure (by simp)) fun later others => ?_
    exact .behind _ fun _ => .pure (.cons bare others)

omit primaries in
/-- The arguments of a class are bare. -/
theorem bare_plainArguments : (plainArguments inner).Finds AllBare :=
  .behind _ fun _ => .bind (.commaSeparated _ (bare_argument inners)) fun _ bare => .behind _ fun _ => .pure bare

/-- What follows an operand is bare. -/
theorem bare_trailer : (trailer primary inner).Finds Expression.Bare := by
  refine .behind _ fun _ => .ite (.behind _ fun _ => .pure (.of_parts allBare_nil)) ?_
  refine .behind _ fun _ => .ite ?_ ?_
  · refine .bind (.commaSeparated _ (bare_slice inners)) fun found bare => .behind _ fun _ => ?_
    exact .unless (.pure ((Expression.bare_combine bare).withForm _))
  · exact .bind (bare_callArguments primaries inners) fun _ bare => .pure (.of_parts bare.children)

end Displays

section Parameters

open Parse

variable {primary inner : Parse Expression} (primaries : primary.Finds Expression.Bare)
  (inners : inner.Finds Expression.Bare)

include inners

/-- The node of a type is found in its role. -/
theorem part_typeNode {role : Role} : (typeNode inner role).Finds (Node.IsPart role) := by
  refine part_expressionNode (.behind _ fun starred => .ite ?_ inners)
  exact .behind _ fun _ => .bind inners fun value bare => .pure bare.combine

/-- The node of a type is bare. -/
theorem bare_typeNode {role : Role} (inside : role.isInner = true) : (typeNode inner role).Finds Node.Bare :=
  fun cursor value moved run => (part_typeNode inners cursor value moved run).bare inside

/-- A type behind a colon is bare. -/
theorem bare_typeBehind (typed : Bool) : (typeBehind inner typed).Finds AllBare := by
  refine .ite (.behind _ fun given => .ite ?_ (.pure allBare_nil)) (.pure allBare_nil)
  exact .bind (bare_typeNode inners rfl) fun type bare => .pure bare.alone

/-- A parameter behind stars is bare. -/
theorem bare_splat {kind : Kind} (plain : kind.isCompound = false) (typed : Bool) (start : Mark) :
    (splat inner kind typed start).Finds Node.Bare := by
  refine .bind (bare_nameNode rfl) fun name bare => .bind (bare_typeBehind inners typed) fun types others => ?_
  have whole : (Node.mk kind .part start name.stop [name]).Bare := .of_parts plain rfl bare.alone
  exact .ite (.pure whole) (.behind _ fun _ => .pure (.of_parts rfl rfl (.cons whole others)))

/-- A parameter from its name or pattern on is bare. -/
theorem bare_parameterFrom (typed : Bool) (start : Mark) {name : Node} (bare : name.Bare) :
    (parameterFrom inner typed start name).Finds Node.Bare := by
  refine .bind (bare_typeBehind inners typed) fun types others => .behind _ fun defaulted => .ite ?_ ?_
  · refine .bind (bare_expressionNode rfl inners) fun value given => .behind _ fun _ => .pure (.of_parts ?_ rfl ?_)
    · split <;> rfl
    · exact (AllBare.cons bare others).append given.alone
  · refine .ite (.pure (bare.inRole rfl)) (.behind _ fun _ => .pure (.of_parts rfl rfl ?_))
    exact .cons (bare.inRole rfl) others

include primaries

/-- A parameter with a name or a pattern is bare. -/
theorem bare_plainParameter (typed : Bool) : (plainParameter primary inner typed).Finds Node.Bare := by
  refine .behind _ fun start => .behind _ fun isPattern => .ite ?_ ?_
  · refine .bind primaries fun pattern bare => .unless (.behind _ fun stop => ?_)
    exact bare_parameterFrom inners false start (.of_parts rfl rfl bare.parts)
  · exact .bind (bare_nameNode rfl) fun name bare => bare_parameterFrom inners typed start bare

/-- A parameter is bare. -/
theorem bare_parameter (typed : Bool) : (parameter primary inner typed).Finds Node.Bare := by
  have alone : ∀ {kind : Kind} {start : Mark}, kind.isCompound = false →
      (do return .mk kind .part start (← behind) [] : Parse Node).Finds Node.Bare := fun plain =>
    .behind _ fun _ => .pure (.of_parts plain rfl allBare_nil)
  refine .behind _ fun start => .behind _ fun slash => .ite (alone rfl) ?_
  refine .behind _ fun stars => .ite (bare_splat inners rfl typed start) ?_
  refine .behind _ fun star => .ite ?_ (bare_plainParameter primaries inners typed)
  exact .behind _ fun symbol => .ite (bare_splat inners rfl typed start) (alone rfl)

/-- An anonymous function is bare. -/
theorem bare_lambdaExpression : (lambdaExpression primary inner).Finds Expression.Bare := by
  have found := Finds.commaSeparated (sees ":") (bare_parameter primaries inners false)
  have list := @bare_node .lambdaParameters rfl .part rfl _ (.bind found fun _ bare => .pure bare)
  refine .behind _ fun _ => .behind _ fun none => ?_
  extract_lets rest
  have finds : ∀ parameters, AllBare parameters → (rest parameters).Finds Expression.Bare :=
    fun parameters bare => .behind _ fun _ => .bind (bare_kept inners) fun body others =>
      .pure (.of_parts (bare.append others))
  split
  · exact .bind (.pure allBare_nil) finds
  · exact .bind list fun parameters bare => .bind (.pure bare.alone) finds

end Parameters

section Expressions

open Parse

variable {primary inner items : Parse Expression}

/-- Several items with commas between them are bare. -/
theorem bare_itemList {item : Parse Expression} (finds : item.Finds Expression.Bare) :
    (itemList item).Finds Expression.Bare := by
  refine .bind (.commaSeparated _ finds) fun found bare => ?_
  split
  · exact .fail
  · exact .pure (bare _ (by simp))
  · exact .pure (Expression.bare_sequence bare)

variable (inners : inner.Finds Expression.Bare)

include inners

/-- An expression that yields is bare. -/
theorem bare_yieldExpression (values : items.Finds Expression.Bare) :
    (yieldExpression inner items).Finds Expression.Bare := by
  refine .behind _ fun _ => .behind _ fun all => .ite (.bind inners fun _ bare => .pure bare.combine) ?_
  refine .behind _ fun symbol => .ite (.bind values fun _ bare => .pure bare.combine) ?_
  exact .pure (.of_parts allBare_nil)

variable (primaries : primary.Finds Expression.Bare)

include primaries

/-- A value without operators is bare. -/
theorem bare_atom : (atom inner primary).Finds Expression.Bare := by
  have items := bare_itemList (bare_starOr primaries inners)
  have yielded := bare_yieldExpression inners items
  have plain : ∀ form, Expression.Bare { form := form } := fun _ => .of_parts allBare_nil
  refine .behind _ fun symbol => ?_
  split
  · exact .behind _ fun _ => .ite (.pure (plain _)) (.unless (.pure (plain _)))
  · exact .behind _ fun _ => .pure (plain _)
  · exact bare_strings (.behind _ fun _ => .ite yielded items)
  · exact bare_parenthesized primaries inners yielded
  · exact bare_bracketed primaries inners
  · exact bare_braced primaries inners
  · exact .behind _ fun _ => .pure (plain _)
  · exact .fail

/-- A value with what follows it is bare. -/
theorem bare_withTrailers : (withTrailers inner primary).Finds Expression.Bare := by
  refine .bind (bare_atom inners primaries) fun value bare => ?_
  refine .bind (.repeatWhile _ (bare_trailer primaries inners)) fun later others => ?_
  split
  · exact .pure bare
  · exact .pure ((Expression.bare_combine (List.forall_mem_cons.mpr ⟨bare, others⟩)).withForm _)

/-- A value that may be awaited is bare. -/
theorem bare_awaited : (awaited inner primary).Finds Expression.Bare := by
  have value := bare_withTrailers inners primaries
  refine .behind _ fun word => .behind _ fun second => .ite ?_ value
  refine .bind (.attempt (.behind _ fun _ => value)) fun found bare => ?_
  split
  · exact .pure (bare _ rfl).combine
  · exact value

/-- An expression is bare when those it holds are. -/
theorem bare_expressionWith : (expressionWith inner primary).Finds Expression.Bare := by
  have value := bare_disjunction primaries
  refine .behind _ fun word => .ite (bare_lambdaExpression primaries inners) ?_
  refine .behind _ fun symbol => .behind _ fun second => .ite ?_ ?_
  · exact .behind _ fun _ => .behind _ fun _ => .bind inners fun _ bare => .pure bare.combine
  · refine .bind value fun first bare => .behind _ fun chooses => .ite ?_ (.pure bare)
    refine .bind value fun condition second => .behind _ fun _ => .bind inners fun other third => .pure ?_
    exact Expression.bare_combine (by simpa using ⟨bare, second, third⟩)

omit primaries in
/-- A value is bare at every depth. -/
theorem bare_primaryAt (depth : Nat) : Parse.Finds (primaryAt inner depth) Expression.Bare := by
  induction depth with
  | zero => exact .fail
  | succ depth ih => exact bare_awaited inners ih

omit inners primaries

/-- An expression is bare at every depth. -/
theorem bare_expressionAt (depth : Nat) : Parse.Finds (expressionAt depth) Expression.Bare := by
  induction depth with
  | zero => exact .fail
  | succ depth ih => exact fun cursor => bare_expressionWith ih (bare_primaryAt ih cursor.limit) cursor

/-- An expression is bare. -/
theorem bare_expression : expression.Finds Expression.Bare := fun cursor =>
  bare_expressionAt (cursor.limit + 1) cursor

/-- A value is bare. -/
theorem bare_primary : Python.primary.Finds Expression.Bare := fun cursor =>
  bare_primaryAt bare_expression (cursor.limit + 1) cursor

/-- An expression that may stand behind a star is bare. -/
theorem bare_item : item.Finds Expression.Bare := bare_starOr bare_primary bare_expression

/-- Expressions with commas between them are bare. -/
theorem bare_items : Python.items.Finds Expression.Bare := bare_itemList bare_item

end Expressions

end SourceOutline.Python
