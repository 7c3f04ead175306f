import SourceOutline.Proofs.Python.Collecting

/-! Definitions in the body of another one start on lines of their own, and hold the same at another level. -/

namespace SourceOutline.Python

section

variable {level taken : Nat} {tail : List Note} {line : Line} {head : Head} {rest lines : List Line}
  {nodes : List Node} {node definition body member : Node}

/-- Behind lines that follow others stand the notes behind all of them. -/
theorem notesBehind_append (tail : List Note) (front back : List Line) :
    notesBehind (notesBehind tail back) front = notesBehind tail (front ++ back) := by
  cases front <;> rfl

/-- What occurs in something that occurs in a tree occurs in the tree. -/
theorem Occurs.trans {tree node inner : Node} (outer : Occurs tree node) (occurs : Occurs node inner) :
    Occurs tree inner := by
  induction occurs with
  | root => exact outer
  | part _ member ih => exact .part ih member

/-- A definition is more than a keyword. -/
theorem Node.isNamed_of_defines {node : Node} (defines : node.kind.defines = true) : node.isNamed = true := by
  rw [Node.isNamed]
  cases kind : node.kind <;> first | rfl | (rw [kind] at defines; cases defines)

/-- What a statement defines occurs in it. -/
theorem occurs_definitionOf {node definition : Node} (of : definitionOf node = some definition)
    (defines : definition.kind.defines = true) : Occurs node definition := by
  have named := Node.isNamed_of_defines defines
  unfold definitionOf at of
  split at of
  · cases of
    exact .root
  · cases of
    exact .root
  · exact .part .root (List.mem_filter.mpr ⟨List.mem_of_find?_eq_some of, named⟩)
  · cases of

/-- Among the cases of a match statement there are no definitions. -/
theorem defines_of_mem_cases (found : statements caseContent level tail lines = some nodes)
    (member : node ∈ nodes) : node.kind.defines = false := by
  have clause := @finds_clause .closed caseParts
  rcases exists_statement_of_mem found member with ⟨_, join⟩ | ⟨_, line, rest, own, taken, _, run, inside⟩
  · exact defines_of_mem_joins join
  · rcases statement_eq_some.mp run with ⟨read, _⟩ | ⟨_, _, read, _, _⟩ | ⟨head, other, read, run, rfl⟩
    all_goals
      obtain ⟨⟨parsed, moved⟩, first, same⟩ := Option.map_eq_some_iff.mp read
      obtain ⟨found, rfl, kind⟩ := clause _ _ _ first
      cases same
    obtain ⟨_, _, _, _, _, _, _, rfl⟩ := compound_eq_some.mp run
    cases List.mem_singleton.mp inside
    show found.kind.defines = false
    rw [kind]
    rfl

/-- The header of a definition stands on a line, above lines that the definition takes. -/
structure Heads (level : Nat) (tail : List Note) (definition : Node) (line : Line) (head : Head) (role : Role)
    (rest : List Line) (taken : Nat) : Prop where
  /-- The header is read on the line. -/
  read : line.read lineContent = some (.header head)
  /-- It is that of a function or a class. -/
  defines : head.kind = .functionDefinition ∨ head.kind = .classDefinition
  /-- The definition is its statement. -/
  run : compound level tail line head role rest = some (definition, taken)

/-- The definition is of the kind of its header. -/
theorem Heads.kind_eq {role : Role} (heads : Heads level tail definition line head role rest taken) :
    definition.kind = head.kind := by
  obtain ⟨_, _, _, _, _, _, _, rfl⟩ := compound_eq_some.mp heads.run
  rfl

/-- Below decorators stands the header of the definition, and the decorators do not mind its level. -/
theorem exists_heads_of_decorated (found : decorated level tail lines = some (nodes, taken)) :
    ∃ applied definition line head rest count, nodes = applied ++ [definition] ∧ AllBare applied ∧
      definition.role = .definition ∧ line :: rest <:+ lines ∧ taken + rest.length = count + lines.length ∧
      Heads level tail definition line head .definition rest count ∧
      ∀ other, compound other tail line head .definition rest = some (definition, count) →
        decorated other tail lines = some (nodes, taken) := by
  induction lines generalizing nodes taken with
  | nil =>
    rw [decorated_nil] at found
    cases found
  | cons first below ih =>
    rcases decorated_cons_eq_some.mp found with ⟨applied, later, count, read, run, rfl, rfl⟩ |
      ⟨head, definition, count, read, defines, run, rfl, rfl⟩
    · obtain ⟨decorators, definition, line, head, rest, inner, rfl, bare, role, within, counts, heads, again⟩ := ih run
      refine ⟨applied ++ decorators, definition, line, head, rest, inner, by simp, ?_, role,
        within.trans (List.suffix_cons _ _), by rw [List.length_cons]; omega, heads, fun other same => ?_⟩
      · cases Line.read_bare bare_lineContent read with
        | decorator own => exact own.append bare
      · exact decorated_cons_eq_some.mpr (.inl ⟨applied, _, count, read, again other same, rfl, rfl⟩)
    · have role : definition.role = .definition := by
        obtain ⟨_, _, _, _, _, _, _, rfl⟩ := compound_eq_some.mp run
        rfl
      refine ⟨[], definition, first, head, below, count, rfl, allBare_nil, role, List.suffix_rfl,
        by rw [List.length_cons]; omega, ⟨read, defines, run⟩, fun other same => ?_⟩
      exact decorated_cons_eq_some.mpr (.inr ⟨head, definition, count, read, defines, same, rfl, rfl⟩)

/-- A statement that is a definition has the header of one, and what is above the header does not mind its level. -/
theorem exists_heads (found : statement lineContent level tail line rest = some (nodes, taken)) (among : node ∈ nodes)
    (of : definitionOf node = some definition) :
    nodes = [node] ∧ ∃ line' head role rest' count, line' :: rest' <:+ line :: rest ∧
      taken + rest'.length = count + rest.length ∧ Heads level tail definition line' head role rest' count ∧
      ∀ other, compound other tail line' head role rest' = some (definition, count) →
        statement lineContent other tail line rest = some (nodes, taken) := by
  have defines := defines_of_definitionOf of
  rcases statement_eq_some.mp found with ⟨read, rfl⟩ | ⟨applied, below, read, run, rfl⟩ |
    ⟨head, found, read, run, rfl⟩
  · rw [Line.read_isSound read node among] at defines
    cases defines
  · cases List.mem_singleton.mp among
    obtain ⟨decorators, decorated, line', head, rest', count, rfl, bare, role, within, counts, heads, again⟩ :=
      exists_heads_of_decorated run
    have same : decorated = definition := by
      cases Line.read_bare bare_lineContent read with
      | decorator own =>
        have none := @find?_role_of_parts _ (own.append bare).allParts .definition rfl
        have first : (applied ++ (decorators ++ [decorated])).find? (fun node => node.role == Role.definition) =
            some definition := of
        rw [← List.append_assoc, List.find?_append, none] at first
        simpa [role] using first
    subst same
    refine ⟨rfl, line', head, .definition, rest', count, within.trans (List.suffix_cons _ _), counts, heads,
      fun other same => ?_⟩
    exact statement_eq_some.mpr (.inr (.inl ⟨applied, _, read, again other same, rfl⟩))
  · cases List.mem_singleton.mp among
    obtain ⟨_, _, _, _, _, _, _, isNode⟩ := compound_eq_some.mp run
    have kind : node.kind = head.kind := by
      rw [isNode]
      rfl
    have either : head.kind = .functionDefinition ∨ head.kind = .classDefinition := by
      rcases Line.read_isSound read with other | ⟨_, either⟩
      · rw [kind, other] at defines
        cases defines
      · exact either
    have same : node = definition := by
      rw [definitionOf, kind] at of
      rcases either with either | either <;> rw [either] at of <;> exact Option.some.inj of
    subst same
    exact ⟨rfl, line, head, .part, rest, taken, List.suffix_rfl, rfl, ⟨read, either, run⟩, fun other same =>
      statement_eq_some.mpr (.inr (.inr ⟨head, node, read, same, rfl⟩))⟩

/-- A definition starts with the line of its header and ends in the suite below it. -/
theorem Heads.exists_suite {role : Role} (heads : Heads level tail definition line head role rest taken) :
    ∃ body, suite level tail line head rest = some (body, taken) ∧ definition.child? .body = some body ∧
      body.kind = .block ∧ definition.start = line.start ∧ (∀ block, head.body = some block → IsBareBody block) ∧
      ∀ other, suite other tail line head rest = some (body, taken) →
        compound other tail line head role rest = some (definition, taken) := by
  have closed : head.stage = .closed := closed_of_defines heads.read (by
    rcases heads.defines with kind | kind <;> rw [kind] <;> rfl)
  obtain ⟨body, count, later, more, run, follow, rfl, rfl⟩ := compound_eq_some.mp heads.run
  rw [closed, clauses_closed] at follow
  obtain ⟨rfl, rfl⟩ := follow
  cases Line.read_bare bare_lineContent heads.read with
  | header parts bare =>
    have lower : body.kind = .block ∧ body.role = .body := by
      rcases suite_eq_some.mp run with ⟨block, given, rfl, _⟩ | ⟨_, _, _, rfl⟩ | ⟨_, _, _, _, _, _, _, rfl⟩
      · obtain ⟨kind, role, _⟩ := bare block given
        cases block
        exact ⟨kind, role⟩
      · exact ⟨rfl, rfl⟩
      · exact ⟨rfl, rfl⟩
    refine ⟨body, run, ?_, lower.1, rfl, bare, fun other again => ?_⟩
    · have none := @find?_role_of_parts _ parts .body rfl
      show (head.parts ++ [body]).find? (fun node => node.role == Role.body) = some body
      rw [List.find?_append, none]
      simp [lower.2]
    · exact compound_eq_some.mpr ⟨body, count, [], 0, again, closed ▸ clauses_closed.mpr ⟨rfl, rfl⟩, rfl, rfl⟩

/-- A definition in the suite of a header starts on a line below the header. -/
theorem begins_of_suite (found : suite level tail line head rest = some (body, taken))
    (bare : ∀ block, head.body = some block → IsBareBody block) (inside : member ∈ body.children)
    (defines : member.kind.defines = true) : ∃ deeper, Begins tail rest deeper member := by
  rcases suite_eq_some.mp found with ⟨block, given, rfl, _⟩ | ⟨_, _, _, rfl⟩ |
    ⟨first, later, children, _, lines, run, rfl, rfl⟩
  · have own := (bare block given).children
    cases block
    rw [defines_of_plain (own member inside).plain] at defines
    cases defines
  · cases inside
  · refine ⟨first.margin, ?_⟩
    have cases_not : head.holdsCases ≠ true := fun holds => by
      rw [if_pos holds] at run
      rw [defines_of_mem_cases run inside] at defines
      cases defines
    rw [if_neg cases_not] at run
    obtain ⟨back, split⟩ := bodyLines_isPrefix level rest
    rw [lines] at split
    have behind : rest.drop (later.length + 1) = back := by
      rw [← split, ← List.length_cons, List.drop_left]
    rw [behind] at run
    obtain ⟨before, next, more, further, copy, own, count, whole, tokens, begins, among⟩ :=
      begins_of_mem run inside defines
    rw [notesBehind_append] at begins
    cases before with
    | nil =>
      -- The notes above the first line are left out, but its tokens are not.
      obtain ⟨rfl, rfl⟩ := List.cons.inj whole
      refine ⟨[], first, more, further ++ back, copy, own, count, ?_, tokens, begins, among⟩
      rw [← split]
      simp
    | cons above before =>
      obtain ⟨_, rfl⟩ := List.cons.inj whole
      refine ⟨first :: before, next, more, further ++ back, copy, own, count, ?_, tokens, begins, among⟩
      rw [← split]
      simp

/-- What starts on the lines behind some starts on one of all of them. -/
theorem Begins.mono (begins : Begins tail rest level node) (within : rest <:+ lines) :
    Begins tail lines level node := by
  obtain ⟨front, rfl⟩ := within
  obtain ⟨before, line, rest, further, copy, own, taken, rfl, others⟩ := begins
  exact ⟨front ++ before, line, rest, further, copy, own, taken, by simp, others⟩

/-- What starts on one of the first lines starts there in front of others. -/
theorem Begins.before {further : List Line} (begins : Begins (notesBehind tail further) lines level node) :
    Begins tail (lines ++ further) level node := by
  obtain ⟨before, line, rest, others, copy, own, taken, rfl, tokens, run, among⟩ := begins
  rw [notesBehind_append] at run
  exact ⟨before, line, rest, others ++ further, copy, own, taken, by simp, tokens, run, among⟩

/-- Definitions in the body of one that starts on a line start on lines themselves. -/
theorem Begins.inside (begins : Begins tail lines level node) (of : definitionOf node = some definition)
    (block : definition.child? .body = some body) : definition.kind.defines = true ∧ body.kind = .block ∧
      ∀ member ∈ body.children, member.kind.defines = true → ∃ deeper, Begins tail lines deeper member := by
  obtain ⟨before, line, rest, further, copy, own, taken, rfl, tokens, run, among⟩ := begins
  obtain ⟨rfl, line', head, role, rest', count, within, _, heads, _⟩ := exists_heads run among of
  obtain ⟨suited, run', block', kind, _, bare, _⟩ := heads.exists_suite
  cases block.symm.trans block'
  refine ⟨heads.kind_eq ▸ Kind.defines_of_either heads.defines, kind, fun member inside defines => ?_⟩
  obtain ⟨deeper, begins⟩ := begins_of_suite run' bare inside defines
  have below : rest' <:+ line :: rest :=
    (List.suffix_of_suffix_length_le ((List.suffix_cons _ _).trans within) (List.suffix_cons copy rest)
      (by have := within.length_le; simp only [List.length_cons] at this; omega)).trans (List.suffix_cons _ _)
  refine ⟨deeper, ?_⟩
  rw [← List.cons_append]
  exact ((begins.mono below).before).mono (List.suffix_append _ _)

/-- The lines of a body are the same above another level that its first line exceeds. -/
theorem bodyLines_eq {other : Nat} {first : Line} {later : List Line} (lines : bodyLines level rest = first :: later)
    (deep : other < first.margin) : bodyLines other rest = first :: later := by
  have level_lt := lt_margin_of_bodyLines lines
  cases rest with
  | nil => cases lines
  | cons next more =>
    simp only [bodyLines] at lines ⊢
    split at lines
    · cases lines
    · obtain ⟨rfl, rfl⟩ := List.cons.inj lines
      rw [if_neg (Nat.not_le.mpr deep)]

/-- A body that takes all lines is the same at another level that its first line exceeds. -/
theorem suite_relevel {other : Nat} (found : suite level tail line head rest = some (body, rest.length))
    (deep : ∀ first later, bodyLines level rest = first :: later → other < first.margin) :
    suite other tail line head rest = some (body, rest.length) := by
  rcases suite_eq_some.mp found with ⟨block, given, rfl, none⟩ | ⟨given, _, none, rfl⟩ |
    ⟨first, later, children, given, lines, run, count, rfl⟩
  · exact suite_eq_some.mpr (.inl ⟨block, given, rfl, none⟩)
  · rw [List.eq_nil_of_length_eq_zero none]
    exact suite_eq_some.mpr (.inr (.inl ⟨given, rfl, rfl, rfl⟩))
  · exact suite_eq_some.mpr
      (.inr (.inr ⟨first, later, children, given, bodyLines_eq lines (deep first later lines), run, count, rfl⟩))

end

end SourceOutline.Python
