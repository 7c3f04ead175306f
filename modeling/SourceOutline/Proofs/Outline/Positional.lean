import SourceOutline.Proofs.Outline.RecordNames
import SourceOutline.Proofs.Python.Blame

/-! The parameters that are listed are those whose default values are checked: the ones with a name in front of
the first star. -/

namespace SourceOutline.Python

/-- Nodes of the kind are stars, or stand behind stars. -/
def Kind.isStar : Kind → Bool
  | .keywordSeparator | .listSplat | .dictionarySplat => true
  | _ => false

/-- A star, or a parameter behind stars, with or without a type. -/
def Node.isStarred (parameter : Node) : Bool :=
  -- With a type the stars and what stands behind them are the first part.
  parameter.kind.isStar ||
    (parameter.kind == .typedParameter && parameter.namedChildren.head?.any fun first => first.kind.isStar)

/-- Nodes of the kind are parameters with a name, with or without a type and a default value. -/
def Kind.isParameter : Kind → Bool
  | .identifier | .typedParameter | .defaultParameter | .typedDefaultParameter => true
  | _ => false

/-- The parameters with a name in front of the first star. -/
def positionalParameters (parameters : List Node) : List Node :=
  -- Slashes, comments and patterns without a default value have none.
  (parameters.takeWhile fun parameter => !parameter.isStarred).filter fun parameter => parameter.kind.isParameter

/-- The name of a parameter as it is written in the source. -/
inductive IsNamed (source : List Char) (parameter : Node) : String → Prop where
  /-- A parameter without type and default value is its own name. -/
  | plain (kind : parameter.kind = .identifier) : IsNamed source parameter (String.ofList (parameter.text source))
  /-- A parameter with a type starts with its name. -/
  | typed {name : Node} (kind : parameter.kind = .typedParameter)
    (first : parameter.namedChildren.head? = some name) (isName : name.kind = .identifier) :
    IsNamed source parameter (String.ofList (name.text source))
  /-- A parameter with a default value has a part that is its name. -/
  | defaulted {name : Node} (has : HasDefault parameter) (named : parameter.child? .name = some name) :
    IsNamed source parameter (String.ofList (name.text source))

/-- The parameters without a default value stand in front of those with one. -/
def DefaultsBehind (parameters : List Node) : Prop :=
  parameters.Pairwise fun earlier later => HasDefault earlier → HasDefault later

section

variable {parameter : Node}

/-- A parameter with a default value counts as one. -/
theorem parameterClass_of_hasDefault (has : HasDefault parameter) : parameterClass parameter = .defaulted := by
  rcases has with kind | kind <;> simp [parameterClass, kind]

/-- A parameter that lacks a default value counts as one. -/
theorem parameterClass_of_lacksDefault (lacks : LacksDefault parameter) : parameterClass parameter = .bare := by
  rcases lacks with kind | ⟨kind, name⟩
  · simp [parameterClass, kind]
  · simp [parameterClass, kind, (isPlainTyped_eq_true_iff parameter).mpr name]

/-- The end of the positional parameters counts as one. -/
theorem parameterClass_of_endsPositional (ends : EndsPositional parameter) : parameterClass parameter = .final := by
  rcases ends with kind | kind | kind | ⟨kind, unnamed⟩
  · simp [parameterClass, kind]
  · simp [parameterClass, kind]
  · simp [parameterClass, kind]
  · simp [parameterClass, kind, mt (isPlainTyped_eq_true_iff parameter).mp unnamed]

/-- What is no parameter and no end is passed over. -/
theorem parameterClass_of_neither (goes : ¬EndsPositional parameter)
    (neither : ¬(HasDefault parameter ∨ LacksDefault parameter)) : parameterClass parameter = .neutral := by
  rcases parameterClass_cases parameter with ⟨_, has, _⟩ | ⟨_, lacks, _⟩ | ⟨_, ends, _⟩ | ⟨kind, _⟩
  · exact absurd (.inl has) neither
  · exact absurd (.inr lacks) neither
  · exact absurd ends goes
  · exact kind

/-- A parameter does not both have and lack a default value. -/
theorem LacksDefault.not_hasDefault (lacks : LacksDefault parameter) : ¬HasDefault parameter := fun has => by
  cases (parameterClass_of_hasDefault has).symm.trans (parameterClass_of_lacksDefault lacks)

end

section

variable {given : List Token} {parameter : Node}

/-- What a typed parameter starts with is a name when it is no star. -/
theorem Node.Formed.head_typed (formed : parameter.Formed given) (kind : parameter.kind = .typedParameter) :
    ∃ first, parameter.namedChildren.head? = some first ∧
      (first.kind = .identifier ∧ parameter.isStarred = false ∨
        first.kind ≠ .identifier ∧ parameter.isStarred = true) := by
  obtain ⟨first, opens, named⟩ := formed.typed kind
  have starred : parameter.isStarred = first.kind.isStar := by
    rw [Node.isStarred, kind, opens]
    rfl
  refine ⟨first, opens, ?_⟩
  rw [starred]
  revert named
  cases first.kind <;> simp [Kind.opensTyped, Kind.isStar]

/-- The listing ends at the first star. -/
theorem Node.Formed.endsListed_eq (formed : parameter.Formed given) :
    parameter.endsListed = parameter.isStarred := by
  by_cases typed : parameter.kind = .typedParameter
  · obtain ⟨first, opens, ⟨name, starred⟩ | ⟨other, starred⟩⟩ := formed.head_typed typed
    · simp [Node.endsListed, typed, opens, name, starred]
    · simp [Node.endsListed, typed, opens, other, starred]
  · revert typed
    rw [Node.endsListed, Node.isStarred]
    cases parameter.kind <;> simp [Kind.isStar]

/-- The check ends at the first star. -/
theorem Node.Formed.endsPositional_iff (formed : parameter.Formed given) :
    EndsPositional parameter ↔ parameter.isStarred = true := by
  by_cases typed : parameter.kind = .typedParameter
  · obtain ⟨first, opens, ⟨name, starred⟩ | ⟨other, starred⟩⟩ := formed.head_typed typed
    · simp [EndsPositional, StartsWithName, typed, opens, name, starred]
    · simp [EndsPositional, StartsWithName, typed, opens, other, starred]
  · revert typed
    rw [EndsPositional, Node.isStarred]
    cases parameter.kind <;> simp [Kind.isStar]

/-- In front of the first star the check looks at the parameters with a name. -/
theorem Node.Formed.isParameter_iff (formed : parameter.Formed given) (free : parameter.isStarred = false) :
    parameter.kind.isParameter = true ↔ HasDefault parameter ∨ LacksDefault parameter := by
  by_cases typed : parameter.kind = .typedParameter
  · obtain ⟨first, opens, ⟨name, _⟩ | ⟨_, starred⟩⟩ := formed.head_typed typed
    · exact iff_of_true (by rw [typed]; rfl) (.inr (.inr ⟨typed, first, opens, name⟩))
    · cases free.symm.trans starred
  · revert typed
    rw [HasDefault, LacksDefault]
    cases parameter.kind <;> simp [Kind.isParameter]

/-- In front of the first star the listing gives the parameters with a name under it. -/
theorem Node.Formed.target?_cases (formed : parameter.Formed given) (free : parameter.isStarred = false)
    (source : List Char) :
    parameter.kind.isParameter = true ∧ (∃ target, parameter.target? = some target ∧
        IsNamed source parameter (String.ofList (target.text source))) ∨
      parameter.kind.isParameter = false ∧ parameter.target? = none := by
  rw [Node.target?]
  cases kind : parameter.kind with
  | identifier => exact .inl ⟨rfl, parameter, rfl, .plain kind⟩
  | typedParameter =>
    obtain ⟨first, opens, ⟨name, _⟩ | ⟨_, starred⟩⟩ := formed.head_typed kind
    · exact .inl ⟨rfl, first, opens, .typed kind opens name⟩
    · cases free.symm.trans starred
  | defaultParameter =>
    obtain ⟨name, named⟩ := formed.defaulted (by rw [kind]; rfl)
    exact .inl ⟨rfl, name, named, .defaulted (.inl kind) named⟩
  | typedDefaultParameter =>
    obtain ⟨name, named⟩ := formed.defaulted (by rw [kind]; rfl)
    exact .inl ⟨rfl, name, named, .defaulted (.inr kind) named⟩
  | _ => exact .inr ⟨rfl, rfl⟩

/-- A star and everything behind it are left out. -/
theorem positionalParameters_cons_star (starred : parameter.isStarred = true) (rest : List Node) :
    positionalParameters (parameter :: rest) = [] := by
  simp [positionalParameters, starred]

/-- A parameter in front of the first star is kept when it has a name. -/
theorem positionalParameters_cons (free : parameter.isStarred = false) (rest : List Node) :
    positionalParameters (parameter :: rest) =
      if parameter.kind.isParameter then parameter :: positionalParameters rest
      else positionalParameters rest := by
  simp [positionalParameters, free, List.filter_cons]

end

section

variable {given : List Token} {parameters : List Node}

/-- What is listed are the names of the parameters in front of the first star, in order. -/
theorem listedParameters_named (source : List Char) (formed : ∀ parameter ∈ parameters, parameter.Formed given) :
    List.Forall₂ (IsNamed source) (positionalParameters parameters)
      ((listedParameters source parameters).map Prod.fst) := by
  rw [listedParameters_eq]
  induction parameters with
  | nil => exact .nil
  | cons parameter rest ih =>
    obtain ⟨here, later⟩ := List.forall_mem_cons.mp formed
    rw [List.takeWhile_cons, here.endsListed_eq]
    cases starred : parameter.isStarred with
    | true =>
      rw [positionalParameters_cons_star starred]
      exact .nil
    | false =>
      rw [positionalParameters_cons starred]
      rcases here.target?_cases starred source with ⟨kept, target, found, named⟩ | ⟨dropped, none⟩
      · simpa [kept, found] using And.intro named (ih later)
      · simpa [dropped, none] using ih later

/-- Among all children of a list the parameter is found misplaced that is found so among the parameters with a name
in front of the first star. -/
theorem misplaced_positionalParameters (formed : ∀ parameter ∈ parameters, parameter.Formed given) (seen : Bool) :
    misplaced seen parameters = misplaced seen (positionalParameters parameters) := by
  induction parameters generalizing seen with
  | nil => rfl
  | cons parameter rest ih =>
    obtain ⟨here, later⟩ := List.forall_mem_cons.mp formed
    cases starred : parameter.isStarred with
    | true =>
      have kind := parameterClass_of_endsPositional (here.endsPositional_iff.mpr starred)
      simp [positionalParameters_cons_star starred, misplaced, kind]
    | false =>
      rw [positionalParameters_cons starred]
      cases kept : parameter.kind.isParameter with
      | true =>
        -- The search takes the same step on both sides.
        rw [if_pos rfl, misplaced, misplaced]
        simp only [ih later]
      | false =>
        have goes : ¬EndsPositional parameter := by simp [here.endsPositional_iff, starred]
        have neither : ¬(HasDefault parameter ∨ LacksDefault parameter) := by
          simp [← here.isParameter_iff starred, kept]
        simp [misplaced, parameterClass_of_neither goes neither, ih later]

/-- The parameters in front of the first star have a default value or lack one. -/
theorem hasDefault_or_lacksDefault (formed : ∀ parameter ∈ parameters, parameter.Formed given) :
    ∀ parameter ∈ positionalParameters parameters, HasDefault parameter ∨ LacksDefault parameter := by
  intro parameter member
  obtain ⟨inside, kept⟩ := List.mem_filter.mp member
  have free : parameter.isStarred = false := by simpa using List.mem_takeWhile_imp inside
  exact ((formed parameter ((List.takeWhile_sublist _).mem inside)).isParameter_iff free).mp kept

/-- No parameter is misplaced when those lacking a default value stand in front, and none is left of them once a
default value has been seen. -/
theorem misplaced_eq_none_iff_defaultsBehind
    (either : ∀ parameter ∈ parameters, HasDefault parameter ∨ LacksDefault parameter) (seen : Bool) :
    misplaced seen parameters = none ↔
      (seen = true → ∀ parameter ∈ parameters, HasDefault parameter) ∧ DefaultsBehind parameters := by
  induction parameters generalizing seen with
  | nil => simp [misplaced, DefaultsBehind]
  | cons parameter rest ih =>
    obtain ⟨here, later⟩ := List.forall_mem_cons.mp either
    have split : DefaultsBehind (parameter :: rest) ↔
        (∀ other ∈ rest, HasDefault parameter → HasDefault other) ∧ DefaultsBehind rest := List.pairwise_cons
    rw [split, misplaced]
    rcases here with has | lacks
    · simp only [parameterClass_of_hasDefault has, ih later, List.forall_mem_cons, has, true_and, forall_const]
      exact ⟨fun both => ⟨fun _ => both.1, both⟩, And.right⟩
    · cases seen <;> simp [parameterClass_of_lacksDefault lacks, ih later, lacks.not_hasDefault]

/-- A parameter without a default value behind one with breaks the order. -/
theorem not_defaultsBehind {front : List Node} {parameter : Node} (behind : ∃ earlier ∈ front, HasDefault earlier)
    (lacks : ¬HasDefault parameter) (rest : List Node) : ¬DefaultsBehind (front ++ parameter :: rest) := by
  intro ordered
  obtain ⟨earlier, member, has⟩ := behind
  exact lacks ((List.pairwise_append.mp ordered).2.2 earlier member parameter List.mem_cons_self has)

/-- A parameter is misplaced when it is the first that lacks a default value behind one that has it. -/
theorem misplaced_eq_some_iff
    (either : ∀ parameter ∈ parameters, HasDefault parameter ∨ LacksDefault parameter) (parameter : Node) :
    misplaced false parameters = some parameter ↔ ∃ front rest, parameters = front ++ parameter :: rest ∧
      DefaultsBehind front ∧ (∃ earlier ∈ front, HasDefault earlier) ∧ ¬HasDefault parameter := by
  have first : ∀ parameter, misplaced false parameters = some parameter → ∃ front rest,
      parameters = front ++ parameter :: rest ∧ DefaultsBehind front ∧ (∃ earlier ∈ front, HasDefault earlier) ∧
        ¬HasDefault parameter := by
    intro parameter found
    obtain ⟨front, rest, rfl, lacks, behind, _, free⟩ := misplaced_eq_some found
    have before : ∀ parameter ∈ front, HasDefault parameter ∨ LacksDefault parameter :=
      fun earlier member => either earlier (List.mem_append_left _ member)
    exact ⟨front, rest, rfl, ((misplaced_eq_none_iff_defaultsBehind before false).mp free).2, by simpa using behind,
      lacks.not_hasDefault⟩
  refine ⟨first parameter, ?_⟩
  rintro ⟨front, rest, split, ordered, behind, lacks⟩
  cases found : misplaced false parameters with
  | none =>
    have all := ((misplaced_eq_none_iff_defaultsBehind either false).mp found).2
    exact absurd (split ▸ all) (not_defaultsBehind behind lacks rest)
  | some other =>
    -- Neither of the two stands behind the other, since the order is kept in front of both.
    obtain ⟨front', rest', split', ordered', behind', lacks'⟩ := first other found
    rcases List.append_eq_append_iff.mp (split.symm.trans split') with ⟨more, rfl, back⟩ | ⟨more, rfl, back⟩
    · cases more with
      | nil => exact congrArg some (List.cons.inj back).1.symm
      | cons next more =>
        obtain rfl : parameter = next := (List.cons.inj back).1
        exact absurd ordered' (not_defaultsBehind behind lacks more)
    · cases more with
      | nil => exact congrArg some (List.cons.inj back).1
      | cons next more =>
        obtain rfl : other = next := (List.cons.inj back).1
        exact absurd ordered (not_defaultsBehind behind' lacks' more)

end

/-- The named parts of every node of a source are formed. -/
theorem exists_formed {source : List Char} {tree node : Node} (parsed : parse source = some tree)
    (within : Within tree node) : ∃ given, ∀ part ∈ node.namedChildren, part.Formed given := by
  obtain ⟨given, spelled, _⟩ := exists_spelled parsed
  exact ⟨given, fun part member => ((within.named member).spelled spelled).formed⟩

/-- A list of parameters anywhere in a source is listed and checked alike. What is listed are the names of the
parameters with a name in front of the first star, in order; the list is accepted exactly when those of them
that lack a default value stand in front of those that have one; otherwise the first that does not is to
blame. -/
theorem parameters_listed_and_checked {source : List Char} {tree list : Node} (parsed : parse source = some tree)
    (within : Within tree list) :
    List.Forall₂ (IsNamed source) (positionalParameters list.namedChildren)
        ((listedParameters source list.namedChildren).map Prod.fst) ∧
      (checkDefaults list = .ok () ↔ DefaultsBehind (positionalParameters list.namedChildren)) ∧
      ∀ failure, checkDefaults list = .error failure ↔ ∃ front parameter rest,
        positionalParameters list.namedChildren = front ++ parameter :: rest ∧ DefaultsBehind front ∧
          (∃ earlier ∈ front, HasDefault earlier) ∧ ¬HasDefault parameter ∧
          failure = failureAt parameter "parameter without a default follows parameter with a default" := by
  obtain ⟨given, formed⟩ := exists_formed parsed within
  have either := hasDefault_or_lacksDefault formed
  have accepted := misplaced_eq_none_iff_defaultsBehind either false
  have blamed := misplaced_eq_some_iff either
  simp only [Bool.false_eq_true, false_implies, true_and] at accepted
  rw [checkDefaults, misplaced_positionalParameters formed false]
  refine ⟨listedParameters_named source formed, ?_, fun failure => ⟨fun failed => ?_, ?_⟩⟩
  · rw [← accepted]
    cases misplaced false (positionalParameters list.namedChildren) <;> simp
  · split at failed
    · rename_i parameter found
      cases failed
      obtain ⟨front, rest, split, ordered, behind, lacks⟩ := (blamed parameter).mp found
      exact ⟨front, parameter, rest, split, ordered, behind, lacks, rfl⟩
    · cases failed
  · rintro ⟨front, parameter, rest, split, ordered, behind, lacks, rfl⟩
    rw [(blamed parameter).mpr ⟨front, rest, split, ordered, behind, lacks⟩]

/-- Parameters in front of a slash and behind it are listed, and none behind a star with a type. -/
theorem parameters_listed_and_checked_star :
    let source := "def f(a, # first\n  /, b: int, c=1, *args: int, d): pass\n".toList
    ∃ tree list, parse source = some tree ∧ Within tree list ∧ list.kind = .parameters ∧
      (listedParameters source list.namedChildren).map Prod.fst = ["a", "b", "c"] ∧
      checkDefaults list = .ok () ∧ DefaultsBehind (positionalParameters list.namedChildren) ∧
      List.Forall₂ (IsNamed source) (positionalParameters list.namedChildren) ["a", "b", "c"] := by
  intro source
  have found : ((parse source).bind fun tree => tree.children.head?.bind fun definition =>
      (definition.child? .parameters).map fun list => (list.kind == .parameters,
        (listedParameters source list.namedChildren).map Prod.fst, (checkDefaults list).isOk)) =
        some (true, ["a", "b", "c"], true) := by
    decide +kernel
  obtain ⟨tree, parsed, found⟩ := Option.bind_eq_some_iff.mp found
  obtain ⟨definition, first, found⟩ := Option.bind_eq_some_iff.mp found
  obtain ⟨list, inside, same⟩ := Option.map_eq_some_iff.mp found
  simp only [Prod.mk.injEq, beq_iff_eq] at same
  obtain ⟨kind, names, accepted⟩ := same
  have top : Within tree definition := .single (List.mem_of_head? first)
  have within : Within tree list := top.child inside
  obtain ⟨listed, checked, _⟩ := parameters_listed_and_checked parsed within
  have fine : checkDefaults list = .ok () := by
    cases result : checkDefaults list with
    | error failure => simp [result, Except.isOk, Except.toBool] at accepted
    | ok done => rfl
  rw [names] at listed
  exact ⟨tree, list, parsed, within, kind, names, fine, checked.mp fine, listed⟩

end SourceOutline.Python
