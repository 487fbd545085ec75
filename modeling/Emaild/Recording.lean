import Emaild.Ingest
import Emaild.Worker

/-!
What an answer does: the message row, its timeline and the suppression list, in
one transaction. Suppressing an address may run into another transaction that
suppresses the same one; the rollback that follows takes the outcome with it.
-/
namespace Emaild
open Relational Text

def refusedDetail (result : DeliveryResult) : List (String × String) :=
  result.refused.rows.map fun (address, code, text) => (address, clip 120 s!"{code} {text}")

/-- The success branch of `_record_outcome`: the row and the events it emits. -/
def recordSuccess (result : DeliveryResult) (now : Time) (m : Message) :
    Message × List (String × EventDetail) :=
  let detail := EventDetail.answered result.code (clip 200 (orEmpty result.response))
    result.acceptedRecipients.length (if result.isPartial then refusedDetail result else [])
  ({ m with
     status := .acceptedByProvider, completedAt := some now
     providerResponse := some (clip 500 (orEmpty result.response))
     failureClass := none, failureCode := none, claimedBy := none, claimedAt := none },
    (if result.isPartial then [("delivery.partial", detail)] else []) ++
      [("provider.accepted", detail)])

/-- `_apply_failure` -/
def applyFailure (result : DeliveryResult) (verdict : Verdict) (attempt : Nat) (jitter : Jitter)
    (now later : Time) (m : Message) : Message × List (String × EventDetail) :=
  let m := { m with
    failureClass := some verdict.failureClass, failureCode := result.code
    providerResponse := some (clip 500 (orEmpty result.response))
    claimedBy := none, claimedAt := none
    needsReview := m.needsReview || verdict.needsReview }
  let detail := EventDetail.failed attempt result.code (clip 200 (orEmpty result.response))
    verdict.failureClass verdict.retryable
  if verdict.retryable ∧ attempt < maxAttempts then
    let delay := backoffDelay attempt jitter
    ({ m with status := .temporarilyFailed, nextAttemptAt := some (later + delay) },
      [("delivery.deferred",
        detail verdict.note (refusedDetail result) (some (delay / 1000000)))])
  else
    let note := if verdict.retryable then some s!"gave up after {maxAttempts} attempts"
      else verdict.note
    ({ m with
       status := .permanentlyRejected, completedAt := some now
       needsReview := m.needsReview || verdict.retryable },
      [("delivery.failed", detail note (refusedDetail result) none)])

/-- `_record_outcome` before it looks at single recipients. -/
def outcome (result : DeliveryResult) (attempt latencyMs : Nat) (jitter : Jitter)
    (now later : Time) (m : Message) : Message × List (String × EventDetail) :=
  let m := { m with providerLatencyMs := some latencyMs }
  if result.success then recordSuccess result now m
  else applyFailure result (classify result.code result.response) attempt jitter now later m

/-- The answers that name one recipient. Without per-recipient detail the answer
is about the only recipient, if there is just one. -/
def suppressionCandidates (m : Message) (result : DeliveryResult) :
    List (String × Option Int × Option String) :=
  let named := result.refused.rows.map fun (address, code, text) => (address, some code, some text)
  if named.isEmpty ∧ result.success = false then
    match m.toAddresses ++ m.ccAddresses.getD [] with
    | [only] =>
        if (m.bccAddresses.getD []).isEmpty then [(only, result.code, result.response)] else []
    | _ => []
  else named

/-- Each refusal is judged on its own terms. -/
def judgedDead (code : Option Int) (text : Option String) : Bool :=
  shouldSuppress code text (classify code text).failureClass

/-- The event of a suppressed address. -/
def suppressedDetail (address : String) (code : Option Int) (text : Option String) : EventDetail :=
  .suppressed address code (clip 160 (orEmpty text))

/-- The column of the details takes their texts. The note of a failure is one of the code's own
texts. -/
def EventDetail.storable (rt : Runtime) : EventDetail → Bool
  | accepted project key _ _ => rt.storesText project && rt.storesText key
  | queued messageIdHeader => rt.storesText messageIdHeader
  | rateGated .. => true
  | attempt _ host => rt.storesText host
  | answered _ response _ refused => rt.storesText response &&
      refused.all fun refusal => rt.storesText refusal.1 && rt.storesText refusal.2
  | failed _ _ response _ _ _ refused _ => rt.storesText response &&
      refused.all fun refusal => rt.storesText refusal.1 && rt.storesText refusal.2
  | undeliverable reason _ => rt.storesText reason
  | suppressed address _ response => rt.storesText address && rt.storesText response

/-- The columns take what is recorded of an answer: its text, and who was refused. -/
def DeliveryResult.legible (rt : Runtime) (result : DeliveryResult) : Bool :=
  rt.storesText (clip 500 (orEmpty result.response)) &&
    ((result.success && !result.isPartial) || (refusedDetail result).all fun refusal =>
      rt.storesText refusal.1 && rt.storesText refusal.2)

/-- One round of `_suppress_dead_recipients`, for an address that is not refused as invalid. -/
def suppressRecipient (rt : Runtime) (race : Race) (now : Time) (m : Message) (address : String)
    (code : Option Int) (text : Option String) : Tx Database Raised PUnit := do
  let (_, created) ← addSuppression rt race now address .bounce
    (some (suppressionReason code text)) (some m.projectId)
  if created then
    if (suppressedDetail address code text).storable rt then
      Tx.write fun db => db.emit m.id "recipient.suppressed" (suppressedDetail address code text)
    else throw .dataError
  else pure ⟨⟩

/-- The loop of `_suppress_dead_recipients`. A rollback inside `add_suppression`
expires the message, and reading an attribute of it then fails. -/
def suppressDeadRecipients (rt : Runtime) (race : Race) (now : Time) (m : Message) :
    List (String × Option Int × Option String) → Tx Database Raised PUnit
  | [] => pure ⟨⟩
  | (address, code, text) :: rest =>
      if judgedDead code text then do
        if (← Tx.look).expired then throw .missingGreenlet
        else match normaliseAddress rt address with
          | .error (.invalidAddress _) => suppressDeadRecipients rt race now m rest
          | _ => do
              suppressRecipient rt race now m address code text
              suppressDeadRecipients rt race now m rest
      else suppressDeadRecipients rt race now m rest

def Database.emitAll (db : Database) (messageId : Nat) (events : List (String × EventDetail)) :
    Database :=
  events.foldl (fun db e => db.emit messageId e.1 e.2) db

theorem outcome_id (result : DeliveryResult) (attempt latencyMs : Nat) (jitter : Jitter)
    (now later : Time) (m : Message) :
    (outcome result attempt latencyMs jitter now later m).1.id = m.id := by
  dsimp only [outcome]
  split
  · rfl
  · dsimp only [applyFailure]
    split <;> rfl

/-- What an answer is recorded with. -/
structure Recording where
  result : DeliveryResult
  attempt : Nat
  latencyMs : Nat
  jitter : Jitter
  now : Time
  later : Time

namespace Recording

def row (r : Recording) (m : Message) : Message :=
  (outcome r.result r.attempt r.latencyMs r.jitter r.now r.later m).1

def events (r : Recording) (m : Message) : List (String × EventDetail) :=
  (outcome r.result r.attempt r.latencyMs r.jitter r.now r.later m).2

@[simp] theorem row_id (r : Recording) (m : Message) : (r.row m).id = m.id := outcome_id ..

/-- The columns take the texts of the outcome. -/
def storable (rt : Runtime) (r : Recording) (m : Message) : Bool :=
  (r.row m).providerResponse.all rt.storesText && (r.events m).all fun e => e.2.storable rt

/-- The message row and its timeline once the outcome is written. -/
def apply (r : Recording) (m : Message) (db : Database) : Database :=
  (db.setMessage m.id r.row r.row_id).emitAll m.id (r.events m)

end Recording

/-- The second transaction of `_deliver_one`. What it writes is flushed before the first
address is looked up, or when it is committed. -/
def recordOutcome (rt : Runtime) (race : Race) (messageId : Nat) (r : Recording) :
    Tx Database Raised PUnit := do
  match (← Tx.look).working.messages.find? messageId with
  | none => throw .noResultFound
  | some m =>
      if r.storable rt m then do
        Tx.write (r.apply m)
        suppressDeadRecipients rt race r.later m (suppressionCandidates m r.result)
      else throw .dataError

/-! Writing the outcome. -/

section EmitAll
variable (db : Database) (id : Nat) (events : List (String × EventDetail))

@[simp] theorem emitAll_messages : (db.emitAll id events).messages = db.messages := by
  induction events generalizing db with
  | nil => rfl
  | cons e events ih => exact (ih _).trans rfl

@[simp] theorem emitAll_suppressions :
    (db.emitAll id events).suppressions = db.suppressions := by
  induction events generalizing db with
  | nil => rfl
  | cons e events ih => exact (ih _).trans rfl

@[simp] theorem emitAll_mailboxes : (db.emitAll id events).mailboxes = db.mailboxes := by
  induction events generalizing db with
  | nil => rfl
  | cons e events ih => exact (ih _).trans rfl

@[simp] theorem emitAll_domains : (db.emitAll id events).domains = db.domains := by
  induction events generalizing db with
  | nil => rfl
  | cons e events ih => exact (ih _).trans rfl

theorem timeline_emitAll_of_mem {id' : Nat} {e : Event} (h : e ∈ db.timeline id') :
    e ∈ (db.emitAll id events).timeline id' := by
  induction events generalizing db with
  | nil => exact h
  | cons x events ih =>
      apply ih
      rw [Database.timeline_emit]
      exact List.mem_append_left _ h

/-- Emitting at least one event adds one that was not there. -/
theorem exists_new_emitAll (h : events ≠ []) :
    ∃ e ∈ (db.emitAll id events).timeline id, e ∉ db.timeline id := by
  cases events with
  | nil => exact absurd rfl h
  | cons x events =>
      refine ⟨⟨id, db.nextSequence id, x.1, x.2⟩, ?_, db.emitted_not_mem id x.1 x.2⟩
      apply timeline_emitAll_of_mem (db.emit id x.1 x.2)
      rw [Database.timeline_emit]
      simp

end EmitAll

theorem outcome_events_ne_nil (result : DeliveryResult) (attempt latencyMs : Nat)
    (jitter : Jitter) (now later : Time) (m : Message) :
    (outcome result attempt latencyMs jitter now later m).2 ≠ [] := by
  dsimp only [outcome]
  split
  · simp [recordSuccess]
  · dsimp only [applyFailure]
    split <;> simp

/-- What identifies and addresses a message is the same. -/
structure SameLetter (m m' : Message) : Prop where
  id : m'.id = m.id
  mailboxId : m'.mailboxId = m.mailboxId
  recipients : m'.envelopeRecipients = m.envelopeRecipients

namespace Recording
variable (r : Recording) (m : Message) (db : Database)

def verdict : Verdict := classify r.result.code r.result.response

/-- Whether a failure is deferred. -/
def Defers : Prop := r.verdict.retryable = true ∧ r.attempt < maxAttempts

instance : Decidable r.Defers := inferInstanceAs (Decidable (_ ∧ _))

/-- What the outcome writes to the columns of the queue. -/
inductive Settles : Message → Prop
  | accepted {m' : Message} (success : r.result.success = true)
      (status : m'.status = .acceptedByProvider) (completed : m'.completedAt = some r.now)
      (schedule : m'.nextAttemptAt = m.nextAttemptAt) : Settles m'
  | deferred {m' : Message} (failure : r.result.success = false) (defers : r.Defers)
      (status : m'.status = .temporarilyFailed) (again : m'.nextAttemptAt.isSome = true)
      (unfinished : m'.completedAt = m.completedAt) : Settles m'
  | rejected {m' : Message} (failure : r.result.success = false) (ends : ¬ r.Defers)
      (status : m'.status = .permanentlyRejected) (completed : m'.completedAt = some r.now)
      (schedule : m'.nextAttemptAt = m.nextAttemptAt) : Settles m'

/-- The columns that no outcome touches, and the claim it gives up. -/
structure Leaves (m' : Message) : Prop where
  letter : SameLetter m m'
  body : m'.bodyHtml = m.bodyHtml ∧ m'.bodyText = m.bodyText
  purged : m'.bodyPurgedAt = m.bodyPurgedAt
  attempts : m'.attempts = m.attempts
  lastAttempt : m'.lastAttemptAt = m.lastAttemptAt
  unclaimed : m'.claimedBy = none ∧ m'.claimedAt = none

theorem row_spec : r.Settles m (r.row m) ∧ Leaves m (r.row m) := by
  unfold Recording.row outcome
  cases success : r.result.success with
  | true =>
      exact ⟨.accepted success rfl rfl rfl, ⟨rfl, rfl, rfl⟩, ⟨rfl, rfl⟩, rfl, rfl, rfl, rfl, rfl⟩
  | false =>
      by_cases defers : r.Defers
      · have deferral : (classify r.result.code r.result.response).retryable = true ∧
            r.attempt < maxAttempts := defers
        simp only [Bool.false_eq_true, if_false, applyFailure, if_pos deferral]
        exact ⟨.deferred success defers rfl rfl rfl, ⟨rfl, rfl, rfl⟩, ⟨rfl, rfl⟩, rfl, rfl, rfl,
          rfl, rfl⟩
      · have final : ¬ ((classify r.result.code r.result.response).retryable = true ∧
            r.attempt < maxAttempts) := defers
        simp only [Bool.false_eq_true, if_false, applyFailure, if_neg final]
        exact ⟨.rejected success defers rfl rfl rfl, ⟨rfl, rfl, rfl⟩, ⟨rfl, rfl⟩,
          rfl, rfl, rfl, rfl,
          rfl⟩

/-- Whether the columns take the outcome is settled by the answer. -/
theorem storable_eq_legible (rt : Runtime) : r.storable rt m = r.result.legible rt := by
  have shorter : rt.storesText (clip 500 (orEmpty r.result.response)) = true →
      rt.storesText (clip 200 (orEmpty r.result.response)) = true := by
    simp only [Runtime.storesText, clip, String.toList_ofList, List.all_eq_true]
    exact fun all c mem => all c (List.take_subset_take_left _ (by decide) mem)
  unfold Recording.storable DeliveryResult.legible Recording.row Recording.events outcome
  cases whole : rt.storesText (clip 500 (orEmpty r.result.response)) with
  | false =>
      cases r.result.success with
      | true => simp [recordSuccess, whole]
      | false =>
          by_cases defers : (classify r.result.code r.result.response).retryable = true ∧
            r.attempt < maxAttempts <;> simp [applyFailure, defers, whole]
  | true =>
      have part := shorter whole
      cases r.result.success with
      | true =>
          cases partly : r.result.isPartial <;>
            simp [recordSuccess, EventDetail.storable, whole, part, partly]
      | false =>
          by_cases defers : (classify r.result.code r.result.response).retryable = true ∧
            r.attempt < maxAttempts <;>
            simp [applyFailure, EventDetail.storable, defers, whole, part]

theorem row_letter : SameLetter m (r.row m) := (r.row_spec m).2.letter

theorem apply_messages : (r.apply m db).messages = db.messages.modify m.id r.row r.row_id := by
  simp [Recording.apply]

@[simp] theorem apply_suppressions : (r.apply m db).suppressions = db.suppressions := by
  simp [Recording.apply]

@[simp] theorem apply_mailboxes : (r.apply m db).mailboxes = db.mailboxes := by
  simp [Recording.apply]

@[simp] theorem apply_domains : (r.apply m db).domains = db.domains := by
  simp [Recording.apply]

theorem exists_new_event :
    ∃ e ∈ (r.apply m db).timeline m.id, e ∉ db.timeline m.id :=
  exists_new_emitAll (db.setMessage m.id r.row r.row_id) m.id (r.events m)
    (outcome_events_ne_nil r.result r.attempt r.latencyMs r.jitter r.now r.later m)

end Recording

/-- Only the timeline and the suppression list may have grown. -/
structure Grown (before after : Database) : Prop extends Bystander before after where
  timeline : ∀ id e, e ∈ before.timeline id → e ∈ after.timeline id

theorem Grown.refl (db : Database) : Grown db db := ⟨.refl db, fun _ _ h => h⟩

theorem Grown.trans {a b c : Database} (h : Grown a b) (h' : Grown b c) : Grown a c :=
  ⟨h.toBystander.trans h'.toBystander, fun id e he => h'.timeline id e (h.timeline id e he)⟩

theorem grown_emit (db : Database) (id : Nat) (type : String) (d : EventDetail) :
    Grown db (db.emit id type d) :=
  ⟨⟨rfl, rfl, rfl⟩, fun id' e h => by
    rw [Database.timeline_emit]
    exact List.mem_append_left _ h⟩

/-- What is added to the timeline is that addresses of one message were suppressed. -/
structure Reports (id : Nat) (before after : Database) : Prop extends Grown before after where
  tells : ∃ news : List (String × EventDetail), (∀ e ∈ news, e.1 = "recipient.suppressed") ∧
    Tells id news before after

theorem Reports.refl (id : Nat) (db : Database) : Reports id db db :=
  ⟨.refl db, [], nofun, .nothing rfl⟩

theorem Reports.trans {id : Nat} {a b c : Database} (h : Reports id a b) (h' : Reports id b c) :
    Reports id a c := by
  obtain ⟨first, firstly, tells⟩ := h.tells
  obtain ⟨second, secondly, tells'⟩ := h'.tells
  exact ⟨h.toGrown.trans h'.toGrown, first ++ second,
    List.forall_mem_append.mpr ⟨firstly, secondly⟩, tells.trans tells'⟩

theorem reports_suppressed (db : Database) (id : Nat) (d : EventDetail) :
    Reports id db (db.emit id "recipient.suppressed" d) :=
  ⟨grown_emit db id _ d, [("recipient.suppressed", d)],
    List.forall_mem_singleton.mpr rfl, .emit db id _ d⟩

theorem reports_listed (id : Nat) (db : Database) (list : Table Suppression.address) :
    Reports id db { db with suppressions := list } :=
  ⟨⟨⟨rfl, rfl, rfl⟩, fun _ _ h => h⟩, [], List.forall_mem_nil _, .nothing rfl⟩

theorem Tells.emitAll (db : Database) (id : Nat) (events : List (String × EventDetail)) :
    Tells id events db (db.emitAll id events) := by
  induction events generalizing db with
  | nil => exact .nothing rfl
  | cons e events ih => exact (Tells.emit db id e.1 e.2).trans (ih _)

/-- The row of the address that a candidate stands for, as far as its columns may refuse it. -/
def rowFits (rt : Runtime) (n : String) (c : String × Option Int × Option String) : Bool :=
  rt.columnTakes 320 n && (some (suppressionReason c.2.1 c.2.2)).all rt.storesText

def eventFits (rt : Runtime) (c : String × Option Int × Option String) : Bool :=
  (suppressedDetail c.1 c.2.1 c.2.2).storable rt

section Loop
variable (rt : Runtime) (race : Race) (now : Time) (m : Message)

/-- A refused address that is judged dead and not on the list, and that another
transaction commits while this one is about to add it. -/
def Contested (db : Database) (c : String × Option Int × Option String) : Prop :=
  judgedDead c.2.1 c.2.2 = true ∧
    ∃ n, normaliseAddress rt c.1 = .ok n ∧ ¬ db.suppressed n ∧ rowFits rt n c = true ∧ race n ≠ none

/-- An address that is judged dead and nests too deeply, or that comes up for the first time
and that the columns do not take. -/
def Barred (db : Database) (earlier : List (String × Option Int × Option String))
    (c : String × Option Int × Option String) : Prop :=
  judgedDead c.2.1 c.2.2 = true ∧ (rt.overflows c.1 = true ∨
    ∃ n, normaliseAddress rt c.1 = .ok n ∧ ¬ db.suppressed n ∧
      (∀ b ∈ earlier, judgedDead b.2.1 b.2.2 = true → normaliseAddress rt b.1 ≠ .ok n) ∧
      (rowFits rt n c && eventFits rt c) = false)

/-- Nothing disturbs the recording of the candidates. -/
def Smooth (db : Database) (candidates : List (String × Option Int × Option String)) : Prop :=
  ∀ before c after, candidates = before ++ c :: after →
    ¬ Contested rt race db c ∧ ¬ Barred rt db before c

/-- The first contested address is the last one that is judged dead, and nothing fails before
it: nothing after it notices the rollback. -/
def Unnoticed (db : Database) (candidates : List (String × Option Int × Option String)) : Prop :=
  ∃ before c after, candidates = before ++ c :: after ∧ Smooth rt race db before ∧
    Contested rt race db c ∧ ∀ a ∈ after, judgedDead a.2.1 a.2.2 = false

/-- The candidates stand for the address. -/
def Candidate (candidates : List (String × Option Int × Option String)) (address : String) : Prop :=
  ∃ c ∈ candidates, judgedDead c.2.1 c.2.2 = true ∧ normaliseAddress rt c.1 = .ok address

/-- The session sees the list as `db` had it, and the candidates that have been added, none of
them against another transaction. -/
structure Knows (db : Database) (earlier : List (String × Option Int × Option String))
    (s : Session Database) : Prop where
  list : ∀ a, s.working.suppressed a ↔ db.suppressed a ∨ Candidate rt earlier a
  calm : ∀ a, s.working.suppressed a → db.suppressed a ∨ race a = none

variable {db : Database} {c : String × Option Int × Option String}
  {before after candidates : List (String × Option Int × Option String)}

theorem smooth_nil : Smooth rt race db [] := fun before c after split => by
  cases before <;> cases split

/-- A list of candidates is undisturbed up to its last one, and there. -/
theorem smooth_concat : Smooth rt race db (before ++ [c]) ↔
    Smooth rt race db before ∧ ¬ Contested rt race db c ∧ ¬ Barred rt db before c := by
  constructor
  · intro smooth
    refine ⟨fun front b rest split => smooth front b (rest ++ [c]) ?_, smooth before c [] rfl⟩
    rw [split, List.append_assoc, List.cons_append]
  · rintro ⟨smooth, last⟩ front b rest split
    rcases List.eq_nil_or_concat' rest with rfl | ⟨rest, d, rfl⟩
    · obtain ⟨rfl, same⟩ := List.append_inj' split rfl
      cases same
      exact last
    · rw [← List.cons_append, ← List.append_assoc] at split
      obtain ⟨rfl, -⟩ := List.append_inj' split rfl
      exact smooth front b rest rfl

/-- The candidates are undisturbed, or there is a first one that is contested or barred. -/
theorem smooth_or_disturbed (db : Database)
    (candidates : List (String × Option Int × Option String)) :
    Smooth rt race db candidates ∨ ∃ before c after, candidates = before ++ c :: after ∧
      Smooth rt race db before ∧ (Contested rt race db c ∨
        (¬ Contested rt race db c ∧ Barred rt db before c)) := by
  induction candidates using List.reverseRecOn with
  | nil => exact .inl (smooth_nil rt race)
  | append_singleton front c ih =>
      rcases ih with smooth | ⟨before, b, after, rfl, first⟩
      · by_cases contested : Contested rt race db c
        · exact .inr ⟨front, c, [], rfl, smooth, .inl contested⟩
        by_cases barred : Barred rt db front c
        · exact .inr ⟨front, c, [], rfl, smooth, .inr ⟨contested, barred⟩⟩
        exact .inl ((smooth_concat rt race).mpr ⟨smooth, contested, barred⟩)
      · exact .inr ⟨before, b, after ++ [c], by rw [List.append_assoc, List.cons_append], first⟩

/-- Where the first disturbed candidate is, is settled by the candidates. -/
theorem first_disturbed {before' after' : List (String × Option Int × Option String)}
    {c' : String × Option Int × Option String}
    (split : before ++ c :: after = before' ++ c' :: after')
    (smooth : Smooth rt race db before) (smooth' : Smooth rt race db before')
    (disturbed : Contested rt race db c ∨ Barred rt db before c)
    (disturbed' : Contested rt race db c' ∨ Barred rt db before' c') :
    before = before' ∧ c = c' ∧ after = after' := by
  rcases List.append_eq_append_iff.mp split with ⟨front, rfl, rest⟩ | ⟨front, rfl, rest⟩
  · cases front with
    | nil =>
        obtain ⟨rfl, rfl⟩ := List.cons.inj rest
        exact ⟨(List.append_nil before).symm, rfl, rfl⟩
    | cons d front =>
        obtain ⟨rfl, -⟩ := List.cons.inj rest
        exact absurd disturbed (not_or.mpr (smooth' before c front rfl))
  · cases front with
    | nil =>
        obtain ⟨rfl, rfl⟩ := List.cons.inj rest
        exact ⟨List.append_nil before', rfl, rfl⟩
    | cons d front =>
        obtain ⟨rfl, -⟩ := List.cons.inj rest
        exact absurd disturbed' (not_or.mpr (smooth before' c' front rfl))

/-- Once a rollback has expired the message, the loop writes nothing more. It
fails at the next address that is judged dead, and ends if there is none. -/
theorem suppress_expired (candidates : List (String × Option Int × Option String))
    {s : Session Database} (expired : s.expired = true) :
    ((suppressDeadRecipients rt race now m candidates).exec s).2 = s ∧
      (((suppressDeadRecipients rt race now m candidates).exec s).1 = .ok ⟨⟩ ↔
        ∀ a ∈ candidates, judgedDead a.2.1 a.2.2 = false) := by
  induction candidates with
  | nil => exact ⟨rfl, by simp [suppressDeadRecipients]⟩
  | cons c rest ih =>
      obtain ⟨address, code, text⟩ := c
      dsimp only [suppressDeadRecipients]
      split
      · rename_i dead
        rw [Tx.exec_bind_ok (Tx.exec_look _), if_pos expired]
        exact ⟨rfl, by simp [dead]⟩
      · rename_i alive
        exact ⟨ih.1, ih.2.trans (by simpa using fun _ => alive)⟩

section Recipient
variable {rt race now m} {address : String} {code : Option Int} {text : Option String}
  {s s' : Session Database}

theorem suppressRecipient_error {e : Raised} (run : (addSuppression rt race now address .bounce
      (some (suppressionReason code text)) (some m.projectId)).exec s = (.error e, s')) :
    (suppressRecipient rt race now m address code text).exec s = (.error e, s') := by
  unfold suppressRecipient
  rw [Tx.exec_bind_error run]

theorem suppressRecipient_listed {existing : Suppression} (run : (addSuppression rt race now address
      .bounce (some (suppressionReason code text)) (some m.projectId)).exec s =
        (.ok (existing, false), s')) :
    (suppressRecipient rt race now m address code text).exec s = (.ok ⟨⟩, s') := by
  unfold suppressRecipient
  rw [Tx.exec_bind_ok run]
  rfl

theorem suppressRecipient_untold {record : Suppression} (run : (addSuppression rt race now address
      .bounce (some (suppressionReason code text)) (some m.projectId)).exec s =
        (.ok (record, true), s')) (told : eventFits rt (address, code, text) = false) :
    (suppressRecipient rt race now m address code text).exec s = (.error .dataError, s') := by
  have refused : ¬ (suppressedDetail address code text).storable rt = true :=
    Bool.eq_false_iff.mp told
  unfold suppressRecipient
  rw [Tx.exec_bind_ok run]
  dsimp only
  rw [if_pos rfl, if_neg refused, Tx.exec_throw]

theorem suppressRecipient_told {record : Suppression} (run : (addSuppression rt race now address
      .bounce (some (suppressionReason code text)) (some m.projectId)).exec s =
        (.ok (record, true), s')) (told : eventFits rt (address, code, text) = true) :
    (suppressRecipient rt race now m address code text).exec s =
      (.ok ⟨⟩, { s' with
        working := s'.working.emit m.id "recipient.suppressed"
          (suppressedDetail address code text) }) := by
  have stored : (suppressedDetail address code text).storable rt = true := told
  unfold suppressRecipient
  rw [Tx.exec_bind_ok run]
  dsimp only
  rw [if_pos rfl, if_pos stored, Tx.exec_write]

/-- An address that is judged dead and not refused as invalid is added before the others. -/
theorem suppress_dead {rest : List (String × Option Int × Option String)}
    (dead : judgedDead code text = true) (fresh : s.expired = false)
    (readable : ∀ message, normaliseAddress rt address ≠ .error (.invalidAddress message)) :
    (suppressDeadRecipients rt race now m ((address, code, text) :: rest)).exec s =
      (suppressRecipient rt race now m address code text >>= fun _ =>
        suppressDeadRecipients rt race now m rest).exec s := by
  rw [suppressDeadRecipients, if_pos dead, Tx.exec_bind_ok (Tx.exec_look _),
    if_neg (by simp [fresh])]
  split
  · rename_i message refused
    exact absurd refused (readable message)
  · rfl

end Recipient

/-- What one round of the loop does in a session that was not rolled back: it skips the
address, adds it, loses the race for it, or raises. -/
inductive Round (c : String × Option Int × Option String) (s : Session Database) : Prop
  | skipped
      (same : ∀ rest, (suppressDeadRecipients rt race now m (c :: rest)).exec s =
        (suppressDeadRecipients rt race now m rest).exec s)
      (known : judgedDead c.2.1 c.2.2 = true → rt.overflows c.1 = false ∧
        ∀ n, normaliseAddress rt c.1 = .ok n → s.working.suppressed n)
  | added {n : String} {next : Session Database} (dead : judgedDead c.2.1 c.2.2 = true)
      (normal : normaliseAddress rt c.1 = .ok n) (calm : race n = none)
      (fits : (rowFits rt n c && eventFits rt c) = true)
      (same : ∀ rest, (suppressDeadRecipients rt race now m (c :: rest)).exec s =
        (suppressDeadRecipients rt race now m rest).exec next)
      (fresh : next.expired = false) (committed : next.committed = s.committed)
      (reports : Reports m.id s.working next.working)
      (list : ∀ a, next.working.suppressed a ↔ a = n ∨ s.working.suppressed a)
  | lost {n : String} {row : Suppression} (dead : judgedDead c.2.1 c.2.2 = true)
      (normal : normaliseAddress rt c.1 = .ok n) (free : ¬ s.working.suppressed n)
      (fits : rowFits rt n c = true) (raced : race n ≠ none) (address : row.address = n)
      (same : ∀ rest, (suppressDeadRecipients rt race now m (c :: rest)).exec s =
        (suppressDeadRecipients rt race now m rest).exec
          ⟨s.committed.addSuppressionRow row, s.committed.addSuppressionRow row, true⟩)
  | raised {e : Raised} {last : Session Database} (dead : judgedDead c.2.1 c.2.2 = true)
      (why : rt.overflows c.1 = true ∨ ∃ n, normaliseAddress rt c.1 = .ok n ∧
        ¬ s.working.suppressed n ∧
          (rowFits rt n c = true → race n = none ∧ eventFits rt c = false))
      (ends : ∀ rest, (suppressDeadRecipients rt race now m (c :: rest)).exec s = (.error e, last))
      (committed : last.committed = s.committed)

section OneRound
variable {rt race now m} {address n : String} {code : Option Int} {text : Option String}
  {s : Session Database} (dead : judgedDead code text = true) (fresh : s.expired = false)
include dead fresh

theorem round_of_error {e : Raised} (spelled : normaliseAddress rt address = .error e) :
    Round rt race now m (address, code, text) s := by
  rcases normaliseAddress_error spelled with ⟨deep, rfl⟩ | ⟨shallow, -, rfl⟩
  · have tried : (suppressRecipient rt race now m address code text).exec s =
        (.error recursionError, s) := suppressRecipient_error (addSuppression_error spelled)
    have readable (message : String) :
        normaliseAddress rt address ≠ .error (.invalidAddress message) := by
      simp [spelled, recursionError]
    exact .raised dead (.inl deep) (fun rest => (suppress_dead dead fresh readable).trans
      (Tx.exec_bind_error tried)) rfl
  · refine .skipped (fun rest => ?_) fun _ => ⟨shallow, fun n h => by
      cases spelled.symm.trans h⟩
    rw [suppressDeadRecipients, if_pos dead, Tx.exec_bind_ok (Tx.exec_look _),
      if_neg (by simp [fresh]), spelled]

variable (normal : normaliseAddress rt address = .ok n)
include normal

theorem suppress_normal {rest : List (String × Option Int × Option String)} :
    (suppressDeadRecipients rt race now m ((address, code, text) :: rest)).exec s =
      (suppressRecipient rt race now m address code text >>= fun _ =>
        suppressDeadRecipients rt race now m rest).exec s :=
  suppress_dead dead fresh fun message => by simp [normal]

theorem round_of_listed (listed : s.working.suppressed n) :
    Round rt race now m (address, code, text) s := by
  obtain ⟨existing, found⟩ := Option.ne_none_iff_exists'.mp listed
  have tried : (suppressRecipient rt race now m address code text).exec s = (.ok ⟨⟩, s) :=
    suppressRecipient_listed (addSuppression_existing normal found)
  refine .skipped (fun rest => (suppress_normal dead fresh normal).trans
    (Tx.exec_bind_ok tried)) fun _ => ⟨(normaliseAddress_eq_ok.mp normal).1, fun n' h => ?_⟩
  obtain rfl := Except.ok.inj (normal.symm.trans h)
  exact listed

variable (found : s.working.suppressions.find? n = none)
include found

theorem round_of_unfit (unfit : rowFits rt n (address, code, text) = false) :
    Round rt race now m (address, code, text) s := by
  have tried : (suppressRecipient rt race now m address code text).exec s =
      (.error .dataError, s) :=
    suppressRecipient_error (addSuppression_refused normal found unfit)
  have never (fits : rowFits rt n (address, code, text) = true) :
      race n = none ∧ eventFits rt (address, code, text) = false :=
    absurd fits (Bool.eq_false_iff.mp unfit)
  exact .raised dead (.inr ⟨n, normal, not_not.mpr found, never⟩)
    (fun rest => (suppress_normal dead fresh normal).trans (Tx.exec_bind_error tried)) rfl

variable (fits : rowFits rt n (address, code, text) = true)
include fits

theorem round_of_lost {rival : Suppression} (raced : race n = some rival) :
    Round rt race now m (address, code, text) s := by
  obtain ⟨existing, run⟩ : ∃ existing, (addSuppression rt race now address .bounce
      (some (suppressionReason code text)) (some m.projectId)).exec s =
        (.ok (existing, false), _) := addSuppression_conflict normal found fits raced
  have taken : race n ≠ none := raced ▸ Option.some_ne_none rival
  have named : ({ rival with address := n } : Suppression).address = n := rfl
  exact .lost dead normal (not_not.mpr found) fits taken named fun rest =>
    (suppress_normal dead fresh normal).trans (Tx.exec_bind_ok (suppressRecipient_listed run))

theorem round_of_calm (calm : race n = none) : Round rt race now m (address, code, text) s := by
  have run : (addSuppression rt race now address .bounce
      (some (suppressionReason code text)) (some m.projectId)).exec s = _ :=
    addSuppression_created normal found fits calm
  cases told : eventFits rt (address, code, text) with
  | false =>
      have tried := suppressRecipient_untold run told
      exact .raised dead (.inr ⟨n, normal, not_not.mpr found, fun _ => ⟨calm, told⟩⟩)
        (fun rest => (suppress_normal dead fresh normal).trans (Tx.exec_bind_error tried)) rfl
  | true =>
      have tried := suppressRecipient_told run told
      refine .added dead normal calm (by rw [fits, told]; rfl)
        (fun rest => (suppress_normal dead fresh normal).trans (Tx.exec_bind_ok tried))
        fresh rfl ?_ fun a => ?_
      · exact (reports_listed m.id s.working _).trans (reports_suppressed _ m.id _)
      · change (_ : Table Suppression.address).find? a ≠ none ↔ _
        rw [Database.emit_suppressions, Table.find?_insert]
        by_cases same : a = n <;> simp [same, Database.suppressed]

end OneRound

theorem suppress_round (c : String × Option Int × Option String) {s : Session Database}
    (fresh : s.expired = false) : Round rt race now m c s := by
  obtain ⟨address, code, text⟩ := c
  by_cases dead : judgedDead code text = true
  · cases normal : normaliseAddress rt address with
    | error e => exact round_of_error dead fresh normal
    | ok n =>
        by_cases listed : s.working.suppressed n
        · exact round_of_listed dead fresh normal listed
        · have found := not_not.mp listed
          cases fits : rowFits rt n (address, code, text) with
          | false => exact round_of_unfit dead fresh normal found fits
          | true =>
              cases raced : race n with
              | some rival => exact round_of_lost dead fresh normal found fits raced
              | none => exact round_of_calm dead fresh normal found fits raced
  · exact .skipped (fun rest => by rw [suppressDeadRecipients, if_neg dead]) fun h => absurd h dead

variable {rt race now m}

theorem Candidate.append {address : String} : Candidate rt (before ++ [c]) address ↔
    Candidate rt before address ∨
      (judgedDead c.2.1 c.2.2 = true ∧ normaliseAddress rt c.1 = .ok address) := by
  simp only [Candidate, List.mem_append, List.mem_singleton, or_and_right, exists_or,
    exists_eq_left]

variable (now m) in
/-- Candidates that nothing disturbs are added or skipped, one after the other. -/
theorem suppress_smooth (smooth : Smooth rt race db before) {s : Session Database}
    (fresh : s.expired = false) (start : ∀ a, s.working.suppressed a ↔ db.suppressed a) :
    ∃ s', s'.expired = false ∧ s'.committed = s.committed ∧
      Reports m.id s.working s'.working ∧ Knows rt race db before s' ∧
      ∀ rest, (suppressDeadRecipients rt race now m (before ++ rest)).exec s =
        (suppressDeadRecipients rt race now m rest).exec s' := by
  induction before using List.reverseRecOn with
  | nil =>
      exact ⟨s, fresh, rfl, .refl _ _, ⟨fun a => by simp [start, Candidate],
        fun a there => .inl ((start a).mp there)⟩, fun _ => rfl⟩
  | append_singleton front c ih =>
      obtain ⟨smooth, uncontested, unbarred⟩ := (smooth_concat rt race).mp smooth
      obtain ⟨s₁, fresh₁, committed₁, reports₁, knows, run⟩ := ih smooth
      have through (rest : List (String × Option Int × Option String)) :
          (suppressDeadRecipients rt race now m (front ++ [c] ++ rest)).exec s =
            (suppressDeadRecipients rt race now m (c :: rest)).exec s₁ := by
        rw [List.append_assoc]
        exact run (c :: rest)
      cases suppress_round rt race now m c fresh₁ with
      | skipped same known =>
          refine ⟨s₁, fresh₁, committed₁, reports₁, ⟨fun a => ?_, knows.calm⟩,
            fun rest => (through rest).trans (same rest)⟩
          rw [Candidate.append, ← or_assoc, ← knows.list]
          exact (or_iff_left_of_imp fun ⟨dead, normal⟩ => (known dead).2 a normal).symm
      | @added n s₂ dead normal calm _ same fresh₂ committed₂ reports₂ list =>
          refine ⟨s₂, fresh₂, committed₂.trans committed₁, reports₁.trans reports₂,
            ⟨fun a => ?_, fun a there => ?_⟩, fun rest => (through rest).trans (same rest)⟩
          · rw [Candidate.append, ← or_assoc, ← knows.list, list, or_comm]
            refine or_congr_right ⟨?_, ?_⟩
            · rintro rfl
              exact ⟨dead, normal⟩
            · rintro ⟨-, normal'⟩
              exact (Except.ok.inj (normal.symm.trans normal')).symm
          · rcases (list a).mp there with rfl | before
            · exact .inr calm
            · exact knows.calm a before
      | lost dead normal free fits raced _ _ =>
          exact absurd ⟨dead, _, normal, fun there => free ((knows.list _).mpr (.inl there)), fits,
            raced⟩ uncontested
      | raised dead why _ _ =>
          refine absurd ⟨dead, why.imp_right ?_⟩ unbarred
          rintro ⟨n, normal, free, unfit⟩
          exact ⟨n, normal, fun there => free ((knows.list n).mpr (.inl there)),
            fun b mem dead normal => free ((knows.list n).mpr (.inr ⟨b, mem, dead, normal⟩)), by
            cases fits : rowFits rt n c with
            | false => rfl
            | true => exact (unfit fits).2⟩

variable (now m) in
/-- With a contested one behind them the session ends on the committed store and the other
transaction's row, whatever it had written before; only a later address that is judged dead
makes it fail. -/
theorem suppress_contested (smooth : Smooth rt race db before) (contested : Contested rt race db c)
    (after : List (String × Option Int × Option String)) {s : Session Database}
    (fresh : s.expired = false) (start : ∀ a, s.working.suppressed a ↔ db.suppressed a) :
    ∃ row, normaliseAddress rt c.1 = .ok row.address ∧
      ((suppressDeadRecipients rt race now m (before ++ c :: after)).exec s).2 =
        ⟨s.committed.addSuppressionRow row, s.committed.addSuppressionRow row, true⟩ ∧
      (((suppressDeadRecipients rt race now m (before ++ c :: after)).exec s).1 = .ok ⟨⟩ ↔
        ∀ a ∈ after, judgedDead a.2.1 a.2.2 = false) := by
  obtain ⟨s₁, fresh₁, committed₁, -, knows, run⟩ :=
    suppress_smooth now m smooth fresh start
  obtain ⟨dead, n, normal, free, fits, raced⟩ := contested
  have unknown : ¬ s₁.working.suppressed n := fun there => (knows.calm n there).elim free raced
  rw [run (c :: after), ← committed₁]
  cases suppress_round rt race now m c fresh₁ with
  | skipped _ known => exact absurd ((known dead).2 n normal) unknown
  | added _ normal' calm =>
      obtain rfl := Except.ok.inj (normal.symm.trans normal')
      exact absurd calm raced
  | @lost n' row _ normal' _ _ _ address same =>
      rw [same after]
      obtain ⟨kept, ends⟩ := suppress_expired rt race now m after
        (s := ⟨s₁.committed.addSuppressionRow row, s₁.committed.addSuppressionRow row, true⟩) rfl
      exact ⟨row, address ▸ normal', kept, ends⟩
  | raised _ why =>
      rcases why with deep | ⟨n', normal', _, unfit⟩
      · cases deep.symm.trans (normaliseAddress_eq_ok.mp normal).1
      · obtain rfl := Except.ok.inj (normal.symm.trans normal')
        exact absurd (unfit fits).1 raced

variable (now m) in
/-- With one behind them that is barred, and not contested, the session fails. -/
theorem suppress_barred (smooth : Smooth rt race db before)
    (uncontested : ¬ Contested rt race db c) (barred : Barred rt db before c)
    (after : List (String × Option Int × Option String)) {s : Session Database}
    (fresh : s.expired = false) (start : ∀ a, s.working.suppressed a ↔ db.suppressed a) :
    ∃ e last, (suppressDeadRecipients rt race now m (before ++ c :: after)).exec s =
      (.error e, last) ∧ last.committed = s.committed := by
  obtain ⟨s₁, fresh₁, committed₁, -, knows, run⟩ :=
    suppress_smooth now m smooth fresh start
  rw [run (c :: after), ← committed₁]
  cases suppress_round rt race now m c fresh₁ with
  | skipped _ known =>
      obtain ⟨shallow, listed⟩ := known barred.1
      rcases barred.2 with deep | ⟨n, normal, free, new, _⟩
      · cases deep.symm.trans shallow
      · rcases (knows.list n).mp (listed n normal) with there | ⟨b, mem, dead, same⟩
        · exact absurd there free
        · exact absurd same (new b mem dead)
  | added _ normal _ fits =>
      rcases barred.2 with deep | ⟨n, normal', _, _, unfit⟩
      · cases deep.symm.trans (normaliseAddress_eq_ok.mp normal).1
      · obtain rfl := Except.ok.inj (normal.symm.trans normal')
        cases fits.symm.trans unfit
  | lost dead normal free fits raced =>
      exact absurd ⟨dead, _, normal, fun there => free ((knows.list _).mpr (.inl there)), fits,
        raced⟩ uncontested
  | @raised e last _ _ ends committed => exact ⟨e, last, ends after, committed⟩

end Loop

/-! The recording transaction. -/

section Record
variable (rt : Runtime) (race : Race) (r : Recording) {db : Database} {m : Message}

theorem suppressed_apply_iff (a : String) : (r.apply m db).suppressed a ↔ db.suppressed a := by
  simp [Database.suppressed]

theorem recordOutcome_exec {id : Nat} (found : db.messages.find? id = some m)
    (fits : r.result.legible rt = true) :
    (recordOutcome rt race id r).exec (.begin db) =
      (suppressDeadRecipients rt race r.later m (suppressionCandidates m r.result)).exec
        ⟨db, r.apply m db, false⟩ := by
  unfold recordOutcome
  rw [Tx.exec_bind_ok (Tx.exec_look _)]
  simp only [Session.begin, found, r.storable_eq_legible m rt, fits, if_true]
  rw [Tx.exec_bind_ok (Tx.exec_write _ _)]

/-- A candidate that makes the recording fail: the first that is disturbed is barred. -/
def Stopped (db : Database) (candidates : List (String × Option Int × Option String)) : Prop :=
  ∃ before c after, candidates = before ++ c :: after ∧ Smooth rt race db before ∧
    ¬ Contested rt race db c ∧ Barred rt db before c

/-- How a recording of a message ends: it fails, it commits the outcome and the candidates, or
nothing of it is left beside the other transaction's row. -/
inductive RecordingEnds (db : Database) (m : Message) : Except Raised PUnit × Database → Prop
  | failed (e : Raised)
      (why : r.result.legible rt = false ∨ Stopped rt race db (suppressionCandidates m r.result)) :
      RecordingEnds db m (.error e, db)
  | recorded {after : Database} (fits : r.result.legible rt = true)
      (smooth : Smooth rt race db (suppressionCandidates m r.result))
      (reports : Reports m.id (r.apply m db) after)
      (list : ∀ a, after.suppressed a ↔
        db.suppressed a ∨ Candidate rt (suppressionCandidates m r.result) a) :
      RecordingEnds db m (.ok ⟨⟩, after)
  | lost {before after : List (String × Option Int × Option String)}
      {c : String × Option Int × Option String} {result : Except Raised PUnit} {row : Suppression}
      (fits : r.result.legible rt = true)
      (split : suppressionCandidates m r.result = before ++ c :: after)
      (smooth : Smooth rt race db before) (contested : Contested rt race db c)
      (address : normaliseAddress rt c.1 = .ok row.address)
      (commits : result = .ok ⟨⟩ ↔ ∀ a ∈ after, judgedDead a.2.1 a.2.2 = false) :
      RecordingEnds db m (result, db.addSuppressionRow row)

theorem recordOutcome_ends {id : Nat} (found : db.messages.find? id = some m) :
    RecordingEnds rt race r db m (sessionScope (recordOutcome rt race id r) db) := by
  cases fits : r.result.legible rt with
  | false =>
      have failed : (recordOutcome rt race id r).exec (.begin db) =
          (.error .dataError, .begin db) := by
        unfold recordOutcome
        rw [Tx.exec_bind_ok (Tx.exec_look _)]
        simp [Session.begin, found, r.storable_eq_legible m rt, fits]
      rw [sessionScope_error failed]
      exact .failed _ (.inl fits)
  | true =>
  have run := recordOutcome_exec rt race r found fits
  rcases smooth_or_disturbed rt race db (suppressionCandidates m r.result) with
    smooth | ⟨before, c, after, split, smooth, contested | ⟨uncontested, barred⟩⟩
  · obtain ⟨s', _, _, reports, knows, through⟩ := suppress_smooth r.later m
      (s := ⟨db, r.apply m db, false⟩) smooth rfl (suppressed_apply_iff r)
    have ends := through []
    rw [List.append_nil, ← run] at ends
    rw [sessionScope_ok ends]
    exact .recorded fits smooth reports knows.list
  · obtain ⟨row, address, ends, commits⟩ := suppress_contested r.later m
      (s := ⟨db, r.apply m db, false⟩) smooth contested after rfl (suppressed_apply_iff r)
    rw [← split, ← run] at ends commits
    have run' : (recordOutcome rt race id r).exec (.begin db) =
        (((recordOutcome rt race id r).exec (.begin db)).1,
          ⟨db.addSuppressionRow row, db.addSuppressionRow row, true⟩) := Prod.ext rfl ends
    rw [sessionScope_settled run']
    exact .lost fits split smooth contested address commits
  · obtain ⟨e, last, ends, committed⟩ := suppress_barred r.later m
      (s := ⟨db, r.apply m db, false⟩) smooth uncontested barred after rfl (suppressed_apply_iff r)
    rw [← split, ← run] at ends
    rw [sessionScope_error ends, committed]
    exact .failed e (.inr ⟨before, c, after, split, smooth, uncontested, barred⟩)

/-- The columns take what is recorded of the answer, and nothing disturbs the addresses that
are judged dead. -/
def Unhindered (db : Database) (m : Message) (result : DeliveryResult) : Prop :=
  result.legible rt = true ∧ Smooth rt race db (suppressionCandidates m result)

theorem recordOutcome_unhindered {id : Nat} (found : db.messages.find? id = some m)
    (free : Unhindered rt race db m r.result) :
    ∃ after, sessionScope (recordOutcome rt race id r) db = (.ok ⟨⟩, after) ∧
      Reports m.id (r.apply m db) after ∧ ∀ a, after.suppressed a ↔
        db.suppressed a ∨ Candidate rt (suppressionCandidates m r.result) a := by
  have ends := recordOutcome_ends rt race r found
  generalize sessionScope (recordOutcome rt race id r) db = run at ends
  cases ends with
  | failed e why =>
      rcases why with illegible | ⟨before, c, after, split, _, _, barred⟩
      · cases free.1.symm.trans illegible
      · exact absurd barred (free.2 before c after split).2
  | recorded _ _ reports list => exact ⟨_, rfl, reports, list⟩
  | lost _ split _ contested => exact absurd contested (free.2 _ _ _ split).1

/-- A recording that is hindered leaves every message as it was. -/
theorem recordOutcome_hindered {id : Nat} (found : db.messages.find? id = some m)
    (hindered : ¬ Unhindered rt race db m r.result) :
    Bystander db (sessionScope (recordOutcome rt race id r) db).2 := by
  have ends := recordOutcome_ends rt race r found
  generalize sessionScope (recordOutcome rt race id r) db = run at ends
  cases ends with
  | failed => exact .refl db
  | recorded fits smooth => exact absurd ⟨fits, smooth⟩ hindered
  | lost => exact bystander_addSuppressionRow ..

/-- What a recording leaves of the message: the row of the outcome if nothing hinders it, and
otherwise the row as it was. -/
theorem recordOutcome_row {id : Nat} (found : db.messages.find? id = some m) :
    (Unhindered rt race db m r.result ∧
      (sessionScope (recordOutcome rt race id r) db).2.messages.find? id = some (r.row m)) ∨
    (¬ Unhindered rt race db m r.result ∧
      (sessionScope (recordOutcome rt race id r) db).2.messages.find? id = some m) := by
  by_cases free : Unhindered rt race db m r.result
  · obtain ⟨after, run, reports, _⟩ := recordOutcome_unhindered rt race r found free
    obtain rfl : m.id = id := Table.key_of_find? found
    refine .inl ⟨free, ?_⟩
    rw [run, reports.messages, Recording.apply_messages, Table.find?_modify_self, found]
    rfl
  · refine .inr ⟨free, ?_⟩
    rw [(recordOutcome_hindered rt race r found free).messages]
    exact found

theorem tells_apply : Tells m.id (r.events m) db (r.apply m db) := by
  have written : Tells m.id [] db (db.setMessage m.id r.row r.row_id) := .nothing rfl
  exact written.trans (.emitAll _ m.id (r.events m))

/-- A recording either rewrites the message row and tells the outcome and which addresses
were suppressed for it or, if it fails or loses a race, touches no message and no event. -/
theorem recordOutcome_tells (id : Nat) :
    (∃ m news, db.messages.find? id = some m ∧
      (∀ e ∈ news, Prod.fst e = "recipient.suppressed") ∧
      Rewrites id r.row db (sessionScope (recordOutcome rt race id r) db).2 ∧
      Tells id (r.events m ++ news) db (sessionScope (recordOutcome rt race id r) db).2) ∨
    (Bystander db (sessionScope (recordOutcome rt race id r) db).2 ∧
      (sessionScope (recordOutcome rt race id r) db).2.events = db.events) := by
  cases found : db.messages.find? id with
  | none =>
      have failed : (recordOutcome rt race id r).exec (.begin db) =
          (.error .noResultFound, .begin db) := by
        unfold recordOutcome
        rw [Tx.exec_bind_ok (Tx.exec_look _)]
        simp only [Session.begin, found, Tx.exec_throw]
      rw [sessionScope_error failed]
      exact .inr ⟨.refl db, rfl⟩
  | some m =>
      obtain rfl : m.id = id := Table.key_of_find? found
      have ends := recordOutcome_ends rt race r found
      generalize sessionScope (recordOutcome rt race m.id r) db = run at ends
      cases ends with
      | failed => exact .inr ⟨.refl db, rfl⟩
      | lost => exact .inr ⟨bystander_addSuppressionRow .., addSuppressionRow_events ..⟩
      | recorded _ _ reports =>
          obtain ⟨news, suppressed, tells⟩ := reports.tells
          have written : Rewrites m.id r.row db (r.apply m db) :=
            ⟨fun id' => by rw [r.apply_messages, Table.find?_modify],
              r.apply_mailboxes m db, r.apply_domains m db⟩
          exact .inl ⟨m, news, rfl, suppressed, written.andThen reports.toBystander,
            (tells_apply r).trans tells⟩

theorem recordOutcome_cases (id : Nat) :
    (∃ m, db.messages.find? id = some m ∧
      Rewrites id r.row db (sessionScope (recordOutcome rt race id r) db).2) ∨
    Bystander db (sessionScope (recordOutcome rt race id r) db).2 := by
  rcases recordOutcome_tells rt race r id with ⟨m, _, found, _, rewrites, _⟩ | ⟨same, _⟩
  · exact .inl ⟨m, found, rewrites⟩
  · exact .inr same

/-- The committed row carries the outcome, and the outcome's events are in the
timeline. -/
structure OutcomeKept (r : Recording) (m : Message) (before after : Database) : Prop where
  row : after.messages.find? m.id = some (r.row m)
  events : ∀ e ∈ (r.apply m before).timeline m.id, e ∈ after.timeline m.id

theorem outcomeKept_of_grown {after : Database} (found : db.messages.find? m.id = some m)
    (grown : Grown (r.apply m db) after) : OutcomeKept r m db after where
  row := by
    rw [grown.messages, Recording.apply_messages, Table.find?_modify_self, found]
    rfl
  events := grown.timeline m.id

/-- A store that only gained another transaction's suppression lacks the events
of the outcome. -/
theorem not_outcomeKept_addSuppressionRow (row : Suppression) :
    ¬ OutcomeKept r m db (db.addSuppressionRow row) := by
  intro kept
  obtain ⟨e, new, absent⟩ := r.exists_new_event m db
  apply absent
  simpa only [Database.timeline, addSuppressionRow_events] using kept.events e new

/-- A recording that commits has kept the outcome, unless the columns take it and another
transaction commits a suppression of the last dead address, with nothing before it that
disturbs, while this one is adding it. -/
theorem recordOutcome_keeps_iff {id : Nat} (found : db.messages.find? id = some m) :
    ((sessionScope (recordOutcome rt race id r) db).1 = .ok ⟨⟩ →
      OutcomeKept r m db (sessionScope (recordOutcome rt race id r) db).2) ↔
    ¬ (r.result.legible rt = true ∧ Unnoticed rt race db (suppressionCandidates m r.result)) := by
  have same : m.id = id := Table.key_of_find? found
  have ends := recordOutcome_ends rt race r found
  generalize sessionScope (recordOutcome rt race id r) db = run at ends
  cases ends with
  | failed e why =>
      refine iff_of_true (fun h => by cases h) ?_
      rintro ⟨fits, before, c, after, split, smooth, contested, -⟩
      rcases why with unfit | ⟨before', c', after', split', smooth', uncontested, barred⟩
      · cases fits.symm.trans unfit
      · obtain ⟨-, rfl, -⟩ := first_disturbed rt race (split.symm.trans split') smooth smooth'
          (.inl contested) (.inr barred)
        exact uncontested contested
  | recorded _ smooth reports =>
      refine iff_of_true (fun _ => outcomeKept_of_grown r (same ▸ found) reports.toGrown) ?_
      rintro ⟨-, before, c, after, split, -, contested, -⟩
      exact (smooth before c after split).1 contested
  | @lost before after c result row fits split smooth contested _ commits =>
      have unnoticed : Unnoticed rt race db (suppressionCandidates m r.result) ↔
          ∀ a ∈ after, judgedDead a.2.1 a.2.2 = false := by
        constructor
        · rintro ⟨before', c', after', split', smooth', contested', quiet⟩
          obtain ⟨-, -, rfl⟩ := first_disturbed rt race (split'.symm.trans split) smooth' smooth
            (.inl contested') (.inl contested)
          exact quiet
        · exact fun quiet => ⟨before, c, after, split, smooth, contested, quiet⟩
      rw [unnoticed, ← commits]
      constructor
      · exact fun kept ⟨_, committed⟩ => not_outcomeKept_addSuppressionRow r row (kept committed)
      · exact fun noticed committed => absurd ⟨fits, committed⟩ noticed

end Record

/-! A hard bounce recorded while an operator suppresses the same address. -/
namespace Sample

/-- The letter to Ann once a worker has claimed it. -/
def inFlight : Message :=
  (newMessage (principal mailbox) (letter "ann@example.net" []) ⟨mailbox, domain⟩ none
    ["ann@example.net"] [] [] ⟨1, "A"⟩ 0).claim "host:1" 0

def storeInFlight : Database :=
  { store mailbox with messages := Table.empty.insert inFlight rfl }

/-- A back-off that is neither stretched nor shortened. -/
def evenJitter : Jitter := ⟨1000000, Nat.le_of_ble_eq_true rfl, Nat.le_of_ble_eq_true rfl⟩

def bounce : Recording where
  result := smtpSend ["ann@example.net"]
    (.recipientsRefused [("ann@example.net", 550, "No such recipient here")])
  attempt := 1
  latencyMs := 40
  jitter := evenJitter
  now := seconds 1
  later := seconds 1

def operator : Race := fun address =>
  if address = "ann@example.net" then some ⟨address, .manual, none, none, 0⟩ else none

end Sample

/-- The rejection commits, but nothing of it is in the store. -/
theorem outcome_lost_to_race :
    Sample.storeInFlight.messages.find? 1 = some Sample.inFlight ∧
    (sessionScope (recordOutcome Sample.runtime Sample.operator 1 Sample.bounce)
      Sample.storeInFlight).1 = .ok ⟨⟩ ∧
    ¬ OutcomeKept Sample.bounce Sample.inFlight Sample.storeInFlight
      (sessionScope (recordOutcome Sample.runtime Sample.operator 1 Sample.bounce)
        Sample.storeInFlight).2 := by
  refine ⟨by decide, by decide, fun kept => ?_⟩
  have unchanged : (sessionScope (recordOutcome Sample.runtime Sample.operator 1 Sample.bounce)
      Sample.storeInFlight).2.messages.find? 1 = some Sample.inFlight := by decide
  have rejected : (Sample.bounce.row Sample.inFlight).status = .permanentlyRejected := by decide
  have sending : Sample.inFlight.status = .sending := rfl
  rw [Option.some.inj (kept.row.symm.trans unchanged), sending] at rejected
  cases rejected

/-- Without the operator the same rejection is kept. -/
theorem outcome_kept_without_race :
    Sample.storeInFlight.messages.find? 1 = some Sample.inFlight ∧
    (((sessionScope (recordOutcome Sample.runtime noRace 1 Sample.bounce)
      Sample.storeInFlight).1 = .ok ⟨⟩ →
      OutcomeKept Sample.bounce Sample.inFlight Sample.storeInFlight
        (sessionScope (recordOutcome Sample.runtime noRace 1 Sample.bounce)
          Sample.storeInFlight).2) ↔
      ¬ (Sample.bounce.result.legible Sample.runtime = true ∧
        Unnoticed Sample.runtime noRace Sample.storeInFlight
          (suppressionCandidates Sample.inFlight Sample.bounce.result))) :=
  ⟨by decide, recordOutcome_keeps_iff Sample.runtime noRace Sample.bounce
    (by decide : Sample.storeInFlight.messages.find? 1 = some Sample.inFlight)⟩

end Emaild
