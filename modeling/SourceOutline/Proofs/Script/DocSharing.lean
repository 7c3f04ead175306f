import SourceOutline.Proofs.Outline.Annotations
import SourceOutline.Proofs.Script.DocSpan

/-! Which records of an outline are documented by one and the same comment block. -/

namespace SourceOutline

/-- An outline has a record of a function, a class or a method, with its line and what documents it. -/
inductive ModuleOutline.Records (outline : ModuleOutline) : Nat → DocComment → Prop where
  /-- A function or a method. -/
  | function {function : FunctionOutline} (lists : outline.Lists function) :
    Records outline function.line ⟨function.description, function.tags⟩
  /-- A class. -/
  | classDef {owner : ClassOutline} (member : owner ∈ outline.classes) :
    Records outline owner.line ⟨owner.description, owner.tags⟩

namespace Script

open Text

namespace IsFound

variable {source before span after : List Char} {window line : Nat}

/-- The line in which a stretch ends goes on with blanks, and is none to be skipped. -/
theorem exists_lines (found : IsFound source window line before span after) :
    ∃ lines last tail behind, sourceLines (before ++ span) = lines ++ [last] ∧
      sourceLines after = tail :: behind ∧ IsPadding tail ∧
      sourceLines source = lines ++ (last ++ tail) :: behind ∧ isSkipped (last ++ tail) = false := by
  obtain ⟨lines, last, joined, ends⟩ :=
    exists_sourceLines_of_closes (found.closes.trans (List.suffix_append before span))
  obtain ⟨tail, behind, past⟩ : ∃ tail behind, sourceLines after = tail :: behind :=
    List.exists_cons_of_ne_nil (splitLines_ne_nil _)
  have padding : IsPadding tail := fun c member =>
    ⟨found.last tail (by rw [past]; rfl) c member,
      isTerminator_eq_false (by rw [past]; exact List.mem_cons_self) member⟩
  have apart : (before ++ span).getLast? = some '\r' → after.head? ≠ some '\n' := by
    obtain ⟨inner, same⟩ := found.closes.trans (List.suffix_append before span)
    simp [← same]
  refine ⟨lines, last, tail, behind, joined, past, padding, ?_, ?_⟩
  · rw [found.whole, sourceLines_append apart joined past]
  · rw [isSkipped_append padding]
    exact found.firm last (by rw [joined, List.getLast?_concat]; rfl)

/-- The stretch ends in a line of the source that is none to be skipped. -/
theorem exists_closing (found : IsFound source window line before span after) :
    ∃ closing, (sourceLines source)[(sourceLines (before ++ span)).length - 1]? = some closing ∧
      isSkipped closing = false := by
  obtain ⟨lines, last, tail, behind, joined, -, -, whole, firm⟩ := found.exists_lines
  exact ⟨_, by simp [whole, joined], firm⟩

/-- A line between the stretch and the line it is found from is to be skipped. -/
theorem isSkipped_of_between (found : IsFound source window line before span after) {index : Nat}
    {other : List Char} (here : (sourceLines source)[index]? = some other)
    (below : (sourceLines (before ++ span)).length ≤ index) (above : index < line - 1) :
    isSkipped other = true := by
  refine found.between other (List.mem_of_getElem? (i := index - (sourceLines (before ++ span)).length) ?_)
  rw [List.getElem?_drop, Nat.add_sub_cancel' below, List.getElem?_take_of_lt above, here]

/-- A stretch is found from a higher line, too, exactly when all lines from there on are to be skipped. -/
theorem iff_of_le {upper lower : Nat} (found : IsFound source window lower before span after)
    (ordered : upper ≤ lower) :
    IsFound source window upper before span after ↔
      ∀ other ∈ ((sourceLines source).take (lower - 1)).drop (upper - 1), isSkipped other = true := by
  constructor
  · intro higher other member
    have above := higher.above
    refine found.between other ?_
    rw [← Nat.add_sub_cancel' (Nat.le_sub_one_of_lt above), ← List.drop_drop] at member
    exact List.mem_of_mem_drop member
  · intro skips
    obtain ⟨closing, here, firm⟩ := found.exists_closing
    have below := found.above
    -- A line that the stretch ends in cannot be one of those to be skipped.
    have above : (sourceLines (before ++ span)).length < upper := by
      by_contra late
      refine Bool.eq_false_iff.mp firm (skips closing (List.mem_of_getElem?
        (i := (sourceLines (before ++ span)).length - 1 - (upper - 1)) ?_))
      rw [List.getElem?_drop, Nat.add_sub_cancel' (by omega), List.getElem?_take_of_lt ?_, here]
      have nonempty : 0 < (sourceLines (before ++ span)).length :=
        List.length_pos_iff.mpr (splitLines_ne_nil _)
      omega
    obtain ⟨more, fewer⟩ : (sourceLines source).take (upper - 1) <+: (sourceLines source).take (lower - 1) :=
      List.take_prefix_take_left (by omega)
    refine { found with above := above, between := fun other member => ?_, within := ?_ }
    · refine found.between other ?_
      rw [← fewer, List.drop_append]
      exact List.mem_append_left _ member
    · have within := found.within
      omega

/-- A stretch begins in the two characters that open a comment. -/
theorem exists_opening (found : IsFound source window line before span after) :
    ∃ text, span = '/' :: '*' :: text := by
  have opens := found.opens
  simp only [opensDoc, Bool.and_eq_true, List.isPrefixOf_iff_prefix] at opens
  obtain ⟨rest, rfl⟩ := opens.1
  exact ⟨_, rfl⟩

/-- No stretch that is found from a line ends behind another one. -/
theorem eq_nil_of_ends {before' span' after' extra : List Char}
    (found : IsFound source window line before span after)
    (again : IsFound source window line before' span' after')
    (longer : before' ++ span' = before ++ span ++ extra) : extra = [] := by
  obtain ⟨lines, last, tail, behind, joined, past, padding, -, -⟩ := found.exists_lines
  obtain ⟨text, ends⟩ := found.closes.trans (List.suffix_append before span)
  have apart : ∀ cs : List Char, (before ++ span).getLast? = some '\r' → cs.head? ≠ some '\n' := by
    simp [← ends]
  obtain ⟨first, more, inner⟩ : ∃ first more, sourceLines extra = first :: more :=
    List.exists_cons_of_ne_nil (splitLines_ne_nil _)
  have further := sourceLines_append (apart extra) joined inner
  -- Both end in the same line, as the line in which the longer one ends is not to be skipped.
  have alone : more = [] := by
    obtain ⟨closing, here, firm⟩ := again.exists_closing
    have above := again.above
    by_contra some_line
    have count := List.length_pos_iff.mpr some_line
    rw [longer, further] at here above
    simp only [List.length_append, List.length_cons] at here above
    refine Bool.eq_false_iff.mp firm (found.isSkipped_of_between here ?_ (by omega))
    rw [joined, List.length_append, List.length_singleton]
    omega
  subst alone
  by_contra some_text
  -- What the longer one ends in would be a blank behind the shorter one.
  obtain ⟨front, same⟩ : ∃ front, extra = front ++ ['/'] := by
    obtain ⟨front, final, rfl⟩ := List.eq_nil_or_concat extra |>.resolve_left some_text
    obtain ⟨start, shape⟩ := again.closes.trans (List.suffix_append before' span')
    rw [longer, List.concat_eq_append, ← List.append_assoc] at shape
    have ending := congrArg List.getLast? shape
    rw [List.getLast?_concat, List.getLast?_append_of_ne_nil _ (by simp)] at ending
    obtain rfl : '/' = final := Option.some.inj ending
    exact ⟨front, List.concat_eq_append⟩
  obtain ⟨others, final, pieces⟩ := exists_splitLines_eq (unifyTerminators front)
  have whole : sourceLines extra = others ++ [final ++ ['/']] := by
    rw [same]
    exact sourceLines_append (by simp) pieces (by decide)
  have ending : first = final ++ ['/'] := by
    rw [inner] at whole
    cases others with
    | nil => simpa using whole
    | cons _ _ => simp at whole
  obtain ⟨next, below, rest⟩ : ∃ next below, sourceLines after' = next :: below :=
    List.exists_cons_of_ne_nil (splitLines_ne_nil _)
  have parted : after = extra ++ after' := by
    have parts := found.whole.symm.trans again.whole
    rw [longer, List.append_assoc (before ++ span)] at parts
    exact List.append_cancel_left parts
  have shape : sourceLines after = [] ++ (first ++ next) :: below := by
    rw [parted]
    exact sourceLines_append (by simp [same]) inner rest
  rw [past] at shape
  have blank := padding.blank '/' (by simp [(List.cons.inj shape).1, ending])
  exact absurd blank (by decide)

/-- No stretch that ends where another one ends begins within that one. -/
theorem eq_nil_of_starts {before' span' after' extra : List Char}
    (found : IsFound source window line before span after)
    (again : IsFound source window line before' span' after')
    (later : before' = before ++ extra) (within : span = extra ++ span') : extra = [] := by
  obtain ⟨text, opens⟩ := found.exists_opening
  obtain ⟨text', opens'⟩ := again.exists_opening
  by_contra some_text
  obtain ⟨start, rest, rfl⟩ := List.exists_cons_of_ne_nil some_text
  obtain rfl : '/' = start := (List.cons.inj (opens.symm.trans within)).1
  obtain ⟨first, behind, inner⟩ : ∃ first behind, sourceLines span' = first :: behind :=
    List.exists_cons_of_ne_nil (splitLines_ne_nil _)
  have marked : ['/', '*'] <+: first :=
    (prefix_sourceLines_iff (by simp [isTerminator]) inner).mpr ⟨text', by rw [opens']; rfl⟩
  obtain ⟨lines, last, pieces⟩ := exists_splitLines_eq (unifyTerminators ('/' :: rest))
  cases lines with
  | nil =>
    -- The first delimiter stands further left on the line in which the inner stretch begins.
    obtain ⟨above, front, ahead⟩ : ∃ above front, sourceLines before = above ++ [front] :=
      exists_splitLines_eq _
    have joined : sourceLines before' = above ++ [front ++ last] := by
      rw [later]
      exact sourceLines_append (by simp) ahead pieces
    refine again.first (front ++ last) (by rw [joined, List.getLast?_concat]; rfl) ?_
    have starts : ['/', '*'] <+: '/' :: rest := by
      cases rest with
      | nil =>
        rw [opens, opens'] at within
        simp at within
      | cons second others =>
        rw [opens] at within
        obtain rfl := (List.cons.inj (List.cons.inj within).2).1
        exact ⟨others, rfl⟩
    have early : ['/', '*'] <+: last :=
      (prefix_sourceLines_iff (by simp [isTerminator]) pieces).mpr starts
    exact early.isInfix.trans (List.suffix_append front last).isInfix
  | cons line others =>
    -- A delimiter opens on a later line of the outer stretch.
    have joined : sourceLines span = (line :: others) ++ (last ++ first) :: behind := by
      rw [within]
      exact sourceLines_append (by simp [opens']) pieces inner
    refine found.later (last ++ first) (by simp [joined]) ?_
    exact marked.isInfix.trans (List.suffix_append last first).isInfix

/-- At most one stretch is found from a line. -/
theorem unique {before' span' after' : List Char}
    (found : IsFound source window line before span after)
    (again : IsFound source window line before' span' after') :
    before = before' ∧ span = span' ∧ after = after' := by
  have ends : before ++ span = before' ++ span' := by
    rcases List.append_eq_append_iff.mp (found.whole.symm.trans again.whole) with
      ⟨extra, longer, -⟩ | ⟨extra, longer, -⟩
    · rw [longer, found.eq_nil_of_ends again longer, List.append_nil]
    · rw [longer, again.eq_nil_of_ends found longer, List.append_nil]
  have starts : before = before' := by
    rcases List.append_eq_append_iff.mp ends with ⟨extra, later, within⟩ | ⟨extra, later, within⟩
    · rw [later, found.eq_nil_of_starts again later within, List.append_nil]
    · rw [later, again.eq_nil_of_starts found later within, List.append_nil]
  subst starts
  obtain rfl := List.append_cancel_left ends
  have parts := found.whole.symm.trans again.whole
  exact ⟨rfl, rfl, List.append_cancel_left parts⟩

end IsFound

/-- A class is defined by a statement: by itself or inside an export. -/
inductive Statement.HoldsClass : Statement → Class → Prop where
  /-- A class defines itself. -/
  | classDef (definition : Class) : HoldsClass (.classDef definition) definition
  /-- It stands inside an export. -/
  | exported {inner : Statement} {names : List (Option Node)} {span : Span} {definition : Class}
    (held : HoldsClass inner definition) : HoldsClass (.exportNamed (some inner) names span) definition
  /-- It is the default export. -/
  | default (definition : Class) (span : Span) : HoldsClass (.exportDefault (.classDef definition) span) definition

/-- A class is the outline of a definition that takes up a stretch of source. -/
def Source.OutlinesClass (source : Source) (definition : Class) (owner : ClassOutline) : Prop :=
  ∃ span isExported, owner = { (source.classDef definition span).1 with isExported := isExported }

/-- A class of an outline of a statement is the outline of one that the statement defines. -/
theorem Source.exists_of_mem_classes {source : Source} {exported : Option Span} {statement : Statement}
    {owner : ClassOutline} (member : owner ∈ (source.statement exported statement).classes) :
    ∃ definition, statement.HoldsClass definition ∧ source.OutlinesClass definition owner := by
  rcases statement with definition | declaration | definition | _ | ⟨_ | inner, names, span⟩ |
    ⟨declaration, span⟩ | _
  · cases member
  · obtain ⟨piece, inside, listed⟩ := ModuleOutline.mem_classes_foldr member
    obtain ⟨bound, -, rfl⟩ := List.mem_map.mp inside
    unfold Source.declarator at listed
    split at listed <;> cases listed
  · exact ⟨definition, .classDef definition, _, _, List.mem_singleton.mp member⟩
  · cases member
  · cases member
  · -- Besides the declaration an export adds names only.
    have inside : owner ∈ (source.statement (some span) inner).classes := by
      simpa [Source.statement] using member
    obtain ⟨definition, held, outlines⟩ := Source.exists_of_mem_classes inside
    exact ⟨definition, .exported held, outlines⟩
  · cases declaration with
    | classDef definition => exact ⟨definition, .default definition span, _, _, List.mem_singleton.mp member⟩
    | _ => cases member
  · cases member

/-- What documents a function is what stands above its line. -/
theorem Source.documentation_of_outlines {source : Source} {definition : Function}
    {function : FunctionOutline} (outlines : source.Outlines definition function) :
    (⟨function.description, function.tags⟩ : DocComment) =
      (docAbove source.lines source.docWindow function.line).getD {} := by
  obtain ⟨name, isExpression, span, isExported, rfl⟩ := outlines
  simp only [Source.function, FunctionOutline.foldl_addParameter, Source.docOf]

/-- Every record has the documentation that stands above its line. -/
theorem documentation_of_records {text : List Char} {window line : Nat} {tree : SyntaxTree}
    {doc : DocComment} (records : (outline text window tree).Records line doc) :
    doc = (docAbove (sourceLines text) window line).getD {} := by
  cases records with
  | function lists =>
    obtain ⟨_, -, _, definition, -, -, outlines, -⟩ := defines_of_lists lists
    exact Source.documentation_of_outlines outlines
  | classDef member =>
    obtain ⟨piece, inside, listed⟩ := ModuleOutline.mem_classes_foldr member
    obtain ⟨node, -, rfl⟩ := List.mem_map.mp inside
    unfold Source.node at listed
    split at listed
    · obtain ⟨definition, -, span, isExported, rfl⟩ := Source.exists_of_mem_classes listed
      rfl
    · cases listed

/-- A record is documented by the only stretch of source that is found from its line, if there is one;
and such a stretch is found from a higher line, too, exactly when all lines from that one on to above
the lower one are blank, decorators or line comments. -/
theorem documentation_shared_iff (text : List Char) (window : Nat) (tree : SyntaxTree) :
    (∀ line doc, (outline text window tree).Records line doc →
      (∃ before span after, IsFound text window line before span after ∧
        (∀ before' span' after', IsFound text window line before' span' after' →
          before' = before ∧ span' = span ∧ after' = after) ∧
        doc = DocComment.ofBlock (unifyTerminators span)) ∨
      (∀ before span after, ¬IsFound text window line before span after) ∧ doc = {}) ∧
    ∀ upper lower before span after, upper ≤ lower → IsFound text window lower before span after →
      (IsFound text window upper before span after ↔
        ∀ other ∈ ((sourceLines text).take (lower - 1)).drop (upper - 1), isSkipped other = true) := by
  refine ⟨fun line doc records => ?_, fun _ _ _ _ _ ordered found => found.iff_of_le ordered⟩
  have same := documentation_of_records records
  cases search : docAbove (sourceLines text) window line with
  | none =>
    refine .inr ⟨fun before span after found => ?_, by rw [same, search]; rfl⟩
    rw [found.docAbove_eq] at search
    cases search
  | some told =>
    obtain ⟨before, span, after, found, read⟩ := exists_isFound search
    refine .inl ⟨before, span, after, found, fun _ _ _ again => again.unique found, ?_⟩
    rw [same, search, read]
    rfl

/-- Two functions on one line share the block above it. -/
theorem documentation_shared_iff_twice :
    ∃ (tree : SyntaxTree) (first second : FunctionOutline),
      (outline "/** A */\nfunction a() {} function b() {}\n".toList 10 tree).functions = [first, second] ∧
        first.name = "a" ∧ second.name = "b" ∧ first.description = some "A" ∧
        second.description = some "A" ∧ ∃ before span after,
          IsFound "/** A */\nfunction a() {} function b() {}\n".toList 10 first.line before span after ∧
          IsFound "/** A */\nfunction a() {} function b() {}\n".toList 10 second.line before span after := by
  let place (start stop : Int) : Json := .object
    [("start", .object [("line", .int 2), ("column", .int start)]),
      ("end", .object [("line", .int 2), ("column", .int stop)])]
  let node (name : String) (start stop : Int) : Json := .object
    [("type", .string "FunctionDeclaration"),
      ("id", .object [("type", .string "Identifier"), ("name", .string name)]),
      ("params", .array []), ("loc", place start stop)]
  let definition (name : String) (start stop : Nat) : Function :=
    ⟨some ⟨name, none⟩, [], false, none, ⟨⟨2, start⟩, ⟨2, stop⟩⟩⟩
  let text := "/** A */\nfunction a() {} function b() {}\n".toList
  let source : Source := ⟨sourceLines text, 10⟩
  have decodedA : Statement.decode .outer (node "a" 0 15) = .ok (.function (definition "a" 0 15)) := by
    rw [Statement.decode]
    rfl
  have decodedB : Statement.decode .outer (node "b" 16 31) = .ok (.function (definition "b" 16 31)) := by
    rw [Statement.decode]
    rfl
  have whole : outline text 10 ⟨[node "a" 0 15, node "b" 16 31]⟩ =
      source.statement none (.function (definition "a" 0 15)) ++
        source.statement none (.function (definition "b" 16 31)) := by
    simp only [outline, List.map_cons, List.map_nil, List.foldr_cons, List.foldr_nil,
      ModuleOutline.append_empty, Source.node, decodedA, decodedB, source]
  let first := source.function (some "a") (definition "a" 0 15) false ⟨⟨2, 0⟩, ⟨2, 15⟩⟩
  let second := source.function (some "b") (definition "b" 16 31) false ⟨⟨2, 16⟩, ⟨2, 31⟩⟩
  have listed : (outline text 10 ⟨[node "a" 0 15, node "b" 16 31]⟩).functions = [first, second] := by
    rw [whole]
    rfl
  have shared := documentation_shared_iff text 10 ⟨[node "a" 0 15, node "b" 16 31]⟩
  have record := ModuleOutline.Records.function (.inl (listed ▸ List.mem_cons_self))
  obtain ⟨before, span, after, found, -, -⟩ | ⟨-, silent⟩ := shared.1 first.line _ record
  · have again := (shared.2 2 2 before span after (Nat.le_refl 2) found).mpr (by decide)
    exact ⟨_, first, second, listed, rfl, rfl, by decide, by decide, before, span, after, found, again⟩
  · exact absurd (congrArg DocComment.description silent) (by decide)

end Script

end SourceOutline
