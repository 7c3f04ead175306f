import SourceOutline.Engine.Reply
import SourceOutline.Proofs.Json.Fields

/-! For which reports of the engine what they are taken for is what they should mean. -/

namespace SourceOutline.Engine

open Shape

/-- A place in the source is told by a number or, left out, is one. -/
def IsPlace (told : Option Json) (n : Nat) : Prop :=
  told = some (.int n) ∨ told = none ∧ n = 1

/-- The parts of a fault are told. -/
structure Tells (message line column : Option Json) (fault : Diagnostic) : Prop where
  /-- The fault is put in words. -/
  message : message = some (.string fault.message)
  /-- The line may be left out. -/
  line : IsPlace line fault.line
  /-- The column may be left out. -/
  column : IsPlace column fault.column

/-- A value tells a fault, by the names of its parts. -/
def TellsFault (value : Json) (fault : Diagnostic) : Prop :=
  Tells (value.get? "message") (value.get? "line") (value.get? "column") fault

/-- A value lists the parts of a fault, without their names. -/
def ListsFault (value : Json) (fault : Diagnostic) : Prop :=
  ∃ items, value = .array items ∧ items.length ≤ 3 ∧ Tells items[0]? items[1]? items[2]? fault

/-- A reply reports a fault of the source. -/
def ReportsFault (reply : Json) (fault : Diagnostic) : Prop :=
  ∃ value, reply.get? "error" = some value ∧ TellsFault value fault

/-- A reply is the tree of a program with the given statements. -/
def IsTree (reply : Json) (body : List Json) : Prop :=
  reply.get? "error" = none ∧ reply.get? "body" = some (.array body)

/-- What a report of the engine should be taken for. -/
structure IsUnderstood (report : ProgramReport) (outcome : Except Failure Script.SyntaxTree) :
    Prop where
  /-- A tree comes from a program that succeeded, and holds what its reply says. -/
  tree : ∀ tree, outcome = .ok tree → report.status.isSuccess = true ∧
    ∃ reply, replyOf report.output = some reply ∧ IsTree reply tree.body
  /-- A fault that is reported counts however the program ended. -/
  fault : ∀ reply fault, replyOf report.output = some reply → ReportsFault reply fault →
    outcome = .error fault.failure
  /-- A program that failed without reporting a fault makes the engine unavailable. -/
  failed : report.status.isSuccess = false →
    (∀ reply fault, replyOf report.output = some reply → ¬ReportsFault reply fault) →
      ∃ reason, outcome = .error (.engineUnavailable reason)
  /-- What else a program says that succeeded is no tree. -/
  malformed : report.status.isSuccess = true →
    (∀ reply, replyOf report.output = some reply →
      (∀ fault, ¬ReportsFault reply fault) ∧ ∀ body, ¬IsTree reply body) →
      ∃ reason, outcome = .error (.malformedTree reason)

/-- A reply is taken for more than it says: the parts of a fault or a tree without their names, or an
object without statements. -/
inductive IsLax : Json → Prop where
  /-- The parts of a fault stand under no names. -/
  | unnamedFault {fields : List (String × Json)} {value : Json} {fault : Diagnostic}
    (told : (Json.object fields).get? "error" = some value) (lists : ListsFault value fault) :
    IsLax (.object fields)
  /-- No statements are told. -/
  | noBody {fields : List (String × Json)} (noError : (Json.object fields).get? "error" = none)
    (noBody : (Json.object fields).get? "body" = none) : IsLax (.object fields)
  /-- A sequence is empty. -/
  | empty : IsLax (.array [])
  /-- A sequence holds the statements. -/
  | unnamedBody {body : List Json} : IsLax (.array [.array body])

/-- A place is told in an object or left out. -/
theorem ofFields_place {whole : Json} {fields : List (String × Json)}
    {inside : ∀ field ∈ fields, sizeOf field.2 < sizeOf whole} {name : String} {n : Nat} :
    (defaulted name 1 .count : Shape whole Nat).ofFields fields inside = .ok n ↔
      IsPlace ((Json.object fields).get? name) n := by
  refine (ofFields_defaulted_eq_ok Decoder.reads_count).trans ?_
  simp [IsPlace]

/-- A place is told in a sequence or stands behind its end. -/
theorem ofItems_place {whole : Json} {items : List Json}
    {inside : ∀ item ∈ items, sizeOf item < sizeOf whole} {start n : Nat} {expected name : String} :
    (defaulted name 1 .count : Shape whole Nat).ofItems start expected items inside = .ok n ↔
      IsPlace items[start]? n := by
  refine (ofItems_defaulted_eq_ok Decoder.reads_count).trans ?_
  simp [IsPlace]

/-- A text is told in an object. -/
theorem ofFields_text {whole : Json} {fields : List (String × Json)}
    {inside : ∀ field ∈ fields, sizeOf field.2 < sizeOf whole} {name text : String} :
    (required name .string : Shape whole String).ofFields fields inside = .ok text ↔
      (Json.object fields).get? name = some (.string text) := by
  refine (ofFields_required_eq_ok Decoder.reads_string).trans ?_
  simp

/-- A text is told in a sequence. -/
theorem ofItems_text {whole : Json} {items : List Json}
    {inside : ∀ item ∈ items, sizeOf item < sizeOf whole} {start : Nat}
    {expected name text : String} :
    (required name .string : Shape whole String).ofItems start expected items inside = .ok text ↔
      items[start]? = some (.string text) := by
  refine (ofItems_required_eq_ok Decoder.reads_string).trans ?_
  simp

/-- A fault is read from a value that tells it or lists its parts. -/
theorem reads_part {whole : Json} :
    Decoder.Reads (Diagnostic.part : Decoder whole Diagnostic) fun value fault =>
      TellsFault value fault ∨ ListsFault value fault := by
  intro value small fault
  rw [Diagnostic.part]
  cases value with
  | object fields =>
    have unlisted : ¬ListsFault (.object fields) fault := fun ⟨_, same, _⟩ => by cases same
    rw [decode_object_eq_ok]
    simp only [ofFields_seq_eq_ok, ofFields_map_eq_ok, ofFields_place, ofFields_text, unlisted,
      or_false]
    constructor
    · rintro ⟨_, column, ⟨_, line, ⟨text, message, rfl⟩, lined, rfl⟩, columned, rfl⟩
      exact ⟨message, lined, columned⟩
    · intro told
      exact ⟨_, _, ⟨_, _, ⟨_, told.message, rfl⟩, told.line, rfl⟩, told.column, rfl⟩
  | array items =>
    have untold : ¬TellsFault (.array items) fault := fun told => by cases told.message
    rw [decode_array_eq_ok]
    simp only [ofItems_seq_eq_ok, ofItems_map_eq_ok, ofItems_place, ofItems_text, untold, false_or]
    constructor
    · rintro ⟨few, _, column, ⟨_, line, ⟨text, message, rfl⟩, lined, rfl⟩, columned, rfl⟩
      exact ⟨items, rfl, few, message, lined, columned⟩
    · rintro ⟨_, same, few, told⟩
      cases same
      exact ⟨few, _, _, ⟨_, _, ⟨_, told.message, rfl⟩, told.line, rfl⟩, told.column, rfl⟩
  | _ =>
    refine iff_of_false (not_decode_eq_ok rfl rfl) ?_
    rintro (told | ⟨_, same, _⟩)
    · cases told.message
    · cases same

/-- The fault of a reply is read from the value that stands under the name of an error. -/
theorem Diagnostic.decode_eq_ok {fields : List (String × Json)} {fault : Diagnostic} :
    decode (.object fields) = .ok fault ↔
      ReportsFault (.object fields) fault ∨
        ∃ value, (Json.object fields).get? "error" = some value ∧ ListsFault value fault := by
  rw [decode, decode_object_eq_ok, ofFields_required_eq_ok reads_part]
  simp only [ReportsFault, and_or_left, exists_or]

/-- The statements of a program are read from an object under their name, and from a sequence as its
only item; they may be left out of either. -/
theorem tree_decode_eq_ok {reply : Json} {tree : Script.SyntaxTree} :
    Script.SyntaxTree.decode reply = .ok tree ↔
      (∃ fields, reply = .object fields ∧ (reply.get? "body" = some (.array tree.body) ∨
        reply.get? "body" = none ∧ tree.body = [])) ∨
      reply = .array [.array tree.body] ∨ reply = .array [] ∧ tree.body = [] := by
  rw [Script.SyntaxTree.decode]
  cases reply with
  | object fields =>
    rw [decode_object_eq_ok]
    simp only [ofFields_map_eq_ok, ofFields_defaulted_eq_ok Decoder.reads_list_any]
    constructor
    · rintro ⟨body, told, rfl⟩
      exact .inl ⟨fields, rfl, by simpa using told⟩
    · rintro (⟨_, _, told⟩ | same | ⟨same, _⟩)
      · exact ⟨tree.body, by simpa using told, rfl⟩
      · cases same
      · cases same
  | array items =>
    rw [decode_array_eq_ok]
    simp only [ofItems_map_eq_ok, ofItems_defaulted_eq_ok Decoder.reads_list_any]
    constructor
    · rintro ⟨few, body, told, rfl⟩
      right
      cases items with
      | nil => exact .inr ⟨rfl, by simpa using told⟩
      | cons item rest =>
        have none_left : rest.length = 0 := Nat.le_zero.mp (Nat.le_of_succ_le_succ few)
        obtain rfl := List.eq_nil_of_length_eq_zero none_left
        exact .inl (by simpa using told)
    · rintro (⟨_, same, _⟩ | same | ⟨same, empty⟩)
      · cases same
      · cases same
        exact ⟨Nat.le_refl 1, tree.body, .inl ⟨_, rfl, rfl⟩, rfl⟩
      · cases same
        exact ⟨Nat.zero_le _, tree.body, .inr ⟨rfl, empty⟩, rfl⟩
  | _ =>
    refine iff_of_false (not_decode_eq_ok rfl rfl) ?_
    rintro (⟨_, same, _⟩ | same | ⟨same, _⟩) <;> cases same

/-- A reply that reports a fault is understood as that fault. -/
theorem understood_of_reports {reply : Json} {fault : Diagnostic}
    (reports : ReportsFault reply fault) : understood reply = .error fault.failure := by
  obtain ⟨value, told, _⟩ := id reports
  obtain ⟨fields, rfl⟩ := exists_object_of_get? told
  rw [understood, told, Diagnostic.decode_eq_ok.mpr (.inl reports)]
  rfl

/-- A reply is understood as a tree when no error is told and its statements can be read. -/
theorem understood_eq_ok {reply : Json} {tree : Script.SyntaxTree} :
    understood reply = .ok tree ↔
      reply.get? "error" = none ∧ Script.SyntaxTree.decode reply = .ok tree := by
  unfold understood
  cases told : reply.get? "error" with
  | none => simp [mapError_eq_ok]
  | some value =>
    cases Diagnostic.decode reply <;> simp

/-- A reply that is not understood as a tree is one that a fault is read from, or is malformed. -/
theorem understood_cases (reply : Json) :
    (∃ tree, understood reply = .ok tree) ∨
      (∃ fault, (reply.get? "error").isSome = true ∧ Diagnostic.decode reply = .ok fault ∧
        understood reply = .error fault.failure) ∨
        ∃ reason, understood reply = .error (.malformedTree reason) := by
  unfold understood
  split
  · rename_i told
    cases read : Diagnostic.decode reply with
    | ok fault => exact .inr (.inl ⟨fault, told, rfl, rfl⟩)
    | error error => exact .inr (.inr ⟨error.message, rfl⟩)
  · cases read : Script.SyntaxTree.decode reply with
    | ok tree => exact .inl ⟨tree, rfl⟩
    | error error => exact .inr (.inr ⟨error.message, rfl⟩)

/-- A reply that is the tree of a program is understood as that tree. -/
theorem understood_of_isTree {reply : Json} {body : List Json} (whole : IsTree reply body) :
    understood reply = .ok ⟨body⟩ := by
  obtain ⟨fields, rfl⟩ := exists_object_of_get? whole.2
  exact understood_eq_ok.mpr ⟨whole.1, tree_decode_eq_ok.mpr (.inl ⟨fields, rfl, .inl whole.2⟩)⟩

/-- A reply that is not lax is the tree that it is understood as. -/
theorem isTree_of_understood {reply : Json} {tree : Script.SyntaxTree} (strict : ¬IsLax reply)
    (taken : understood reply = .ok tree) : IsTree reply tree.body := by
  obtain ⟨noError, read⟩ := understood_eq_ok.mp taken
  rcases tree_decode_eq_ok.mp read with ⟨fields, rfl, told | ⟨noBody, _⟩⟩ | rfl | ⟨rfl, _⟩
  · exact ⟨noError, told⟩
  · exact absurd (.noBody noError noBody) strict
  · exact absurd .unnamedBody strict
  · exact absurd .empty strict

/-- A reply that is not lax reports the fault that is read from it. -/
theorem reportsFault_of_decode {reply : Json} {fault : Diagnostic} (strict : ¬IsLax reply)
    (read : Diagnostic.decode reply = .ok fault) (told : (reply.get? "error").isSome = true) :
    ReportsFault reply fault := by
  obtain ⟨value, there⟩ := Option.isSome_iff_exists.mp told
  obtain ⟨fields, rfl⟩ := exists_object_of_get? there
  rcases Diagnostic.decode_eq_ok.mp read with reports | ⟨_, listed, lists⟩
  · exact reports
  · exact absurd (.unnamedFault listed lists) strict

/-- A lax reply that reports no fault is taken for a tree that it is not, or for a fault. -/
theorem understood_of_isLax {reply : Json} (lax : IsLax reply)
    (free : ∀ fault, ¬ReportsFault reply fault) :
    (∀ body, ¬IsTree reply body) ∧ ((∃ tree, understood reply = .ok tree) ∨
      ∃ fault : Diagnostic, understood reply = .error fault.failure) := by
  cases lax with
  | @unnamedFault fields value fault told lists =>
    refine ⟨fun body whole => ?_, .inr ⟨fault, ?_⟩⟩
    · cases told.symm.trans whole.1
    · rw [understood, told, Diagnostic.decode_eq_ok.mpr (.inr ⟨value, told, lists⟩)]
      rfl
  | @noBody fields noError noBody =>
    refine ⟨fun body whole => ?_, .inl ⟨⟨[]⟩, understood_eq_ok.mpr ⟨noError, ?_⟩⟩⟩
    · cases noBody.symm.trans whole.2
    · exact tree_decode_eq_ok.mpr (.inl ⟨fields, rfl, .inr ⟨noBody, rfl⟩⟩)
  | empty =>
    refine ⟨fun body whole => (nomatch whole.2), .inl ⟨⟨[]⟩, understood_eq_ok.mpr ⟨rfl, ?_⟩⟩⟩
    exact tree_decode_eq_ok.mpr (.inr (.inr ⟨rfl, rfl⟩))
  | @unnamedBody body =>
    refine ⟨fun other whole => (nomatch whole.2), .inl ⟨⟨body⟩, understood_eq_ok.mpr ⟨rfl, ?_⟩⟩⟩
    exact tree_decode_eq_ok.mpr (.inr (.inl rfl))

/-- A reply that is the tree of a program is taken for it however the program ended. -/
theorem interpret_of_isTree {report : ProgramReport} {reply : Json} {body : List Json}
    (read : replyOf report.output = some reply) (whole : IsTree reply body) :
    interpret report = .ok ⟨body⟩ := by
  rw [interpret, read]
  exact understood_of_isTree whole

/-- A report without a reply is understood as it should be: the way the program ended decides. -/
theorem isUnderstood_of_no_reply {report : ProgramReport} (read : replyOf report.output = none) :
    IsUnderstood report (interpret report) := by
  have taken : interpret report = .error (unreadable report) := by rw [interpret, read]
  rw [taken]
  refine ⟨fun tree same => (nomatch same), fun reply fault same => ?_, fun failed _ => ?_,
    fun success _ => ?_⟩
  · cases read.symm.trans same
  · exact ⟨_, by rw [unreadable, failed]; rfl⟩
  · exact ⟨_, by rw [unreadable, success]; rfl⟩

/-- A report with a reply that reports a fault is understood as it should be. -/
theorem isUnderstood_of_reports {report : ProgramReport} {reply : Json} {fault : Diagnostic}
    (read : replyOf report.output = some reply) (reports : ReportsFault reply fault) :
    IsUnderstood report (interpret report) := by
  have taken : interpret report = .error fault.failure := by
    rw [interpret, read]
    exact understood_of_reports reports
  refine ⟨fun tree same => ?_, fun other second same also => ?_, fun _ free => ?_,
    fun _ nothing => ?_⟩
  · cases taken.symm.trans same
  · rw [interpret, same]
    exact understood_of_reports also
  · exact absurd reports (free reply fault read)
  · exact absurd reports ((nothing reply read).1 fault)

/-- A report with a reply that reports no fault is understood as it should be exactly when the program
succeeded and the reply is not lax. -/
theorem isUnderstood_iff_of_free {report : ProgramReport} {reply : Json}
    (read : replyOf report.output = some reply) (free : ∀ fault, ¬ReportsFault reply fault) :
    IsUnderstood report (interpret report) ↔ report.status.isSuccess = true ∧ ¬IsLax reply := by
  have taken : interpret report = understood reply := by rw [interpret, read]
  have only : ∀ other, replyOf report.output = some other → other = reply := fun other same =>
    Option.some.inj (same.symm.trans read)
  rw [taken]
  constructor
  · intro meets
    cases ended : report.status.isSuccess with
    | false =>
      -- No reply makes the engine unavailable, which it should be when the program failed.
      obtain ⟨reason, unavailable⟩ := meets.failed ended fun other fault same =>
        only other same ▸ free fault
      rcases understood_cases reply with ⟨_, other⟩ | ⟨_, _, _, other⟩ | ⟨_, other⟩ <;>
        cases other.symm.trans unavailable
    | true =>
      refine ⟨rfl, fun lax => ?_⟩
      obtain ⟨noTree, ⟨tree, other⟩ | ⟨fault, other⟩⟩ := understood_of_isLax lax free
      · obtain ⟨_, found, same, whole⟩ := meets.tree tree other
        rw [only found same] at whole
        exact noTree tree.body whole
      · obtain ⟨reason, malformed⟩ := meets.malformed ended fun found same =>
          only found same ▸ ⟨free, noTree⟩
        cases other.symm.trans malformed
  · rintro ⟨success, strict⟩
    refine ⟨fun tree same => ⟨success, reply, read, isTree_of_understood strict same⟩,
      fun other fault same told => ?_, fun failed _ => ?_, fun _ nothing => ?_⟩
    · rw [only other same] at told
      exact absurd told (free fault)
    · cases success.symm.trans failed
    · rcases understood_cases reply with ⟨tree, other⟩ | ⟨fault, told, found, _⟩ | malformed
      · exact absurd (isTree_of_understood strict other) ((nothing reply read).2 tree.body)
      · exact absurd (reportsFault_of_decode strict found told) (free fault)
      · exact malformed

/-- A report is understood as it should be, unless its reply counts although the program failed
without reporting a fault, or is taken for more than it says. -/
theorem isUnderstood_interpret_iff (report : ProgramReport) :
    IsUnderstood report (interpret report) ↔
      ∀ reply, replyOf report.output = some reply → (∃ fault, ReportsFault reply fault) ∨
        (report.status.isSuccess = true ∧ ¬IsLax reply) := by
  cases read : replyOf report.output with
  | none =>
    refine iff_of_true (isUnderstood_of_no_reply read) fun reply same => ?_
    cases same
  | some reply =>
    simp only [Option.some.injEq, forall_eq']
    by_cases reports : ∃ fault, ReportsFault reply fault
    · obtain ⟨fault, told⟩ := reports
      exact iff_of_true (isUnderstood_of_reports read told) (.inl ⟨fault, told⟩)
    · have free := not_exists.mp reports
      rw [isUnderstood_iff_of_free read free, or_iff_right reports]

end SourceOutline.Engine
