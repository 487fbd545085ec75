import Emaild.Fleet.Attempts

/-!
What becomes of each recipient. One status stands for all of them: a success ends
the message whoever was refused, and a failure is judged by the first refusal
alone. A refusal that would have been retried on its own is dropped in both ways.
-/
namespace Emaild
open Relational

/-- The reply that a result holds against a recipient: its own refusal, or the
answer to the message as a whole when nobody is named. -/
def DeliveryResult.refusal (r : DeliveryResult) (recipient : String) :
    Option (Option Int × Option String) :=
  match r.refused.find? recipient with
  | some (_, code, text) => some (some code, some text)
  | none => if r.success = false ∧ r.refused.rows.isEmpty then some (r.code, r.response) else none

def finalReply (reply : Option Int × Option String) : Bool := !(classify reply.1 reply.2).retryable

/-- The result takes the recipient, or refuses it for good. -/
def DeliveryResult.settles (r : DeliveryResult) (recipient : String) : Bool :=
  decide (recipient ∈ r.acceptedRecipients) || (r.refusal recipient).any finalReply

/-- A result that ends its message although attempts are left. -/
def DeliveryResult.Ends (r : DeliveryResult) : Prop :=
  r.success = true ∨ finalReply (r.code, r.response) = true

/-- No refusal in the result is one that would be retried on its own. -/
def DeliveryResult.AllFinal (r : DeliveryResult) : Prop :=
  ∀ p ∈ r.refused, finalReply (some p.2.1, some p.2.2) = true

/-- An answer of the SMTP adapter that ends a message settles every recipient,
provided that each refusal in it is final on its own. -/
theorem smtpSend_settles {recipients : List String} {outcome : WireOutcome}
    (documented : outcome.Documented recipients) (ends : (smtpSend recipients outcome).Ends)
    (final : (smtpSend recipients outcome).AllFinal) {recipient : String}
    (mem : recipient ∈ recipients) : (smtpSend recipients outcome).settles recipient = true := by
  have named :
      ∀ {p : String × Reply}, (smtpSend recipients outcome).refused.find? recipient = some p →
      (smtpSend recipients outcome).settles recipient = true := by
    intro p found
    have reply := final p (Table.mem_of_find? found)
    simp [DeliveryResult.settles, DeliveryResult.refusal, found, reply]
  cases outcome with
  | returned errors response =>
      cases found : errors.find? recipient with
      | some p => exact named found
      | none =>
          have taken :
              recipient ∈ (smtpSend recipients (.returned errors response)).acceptedRecipients :=
            List.mem_filter.mpr ⟨mem, by simp [found]⟩
          simp [DeliveryResult.settles, taken]
  | recipientsRefused refused =>
      obtain ⟨reply, listed⟩ := documented recipient mem
      obtain ⟨p, found⟩ := Option.ne_none_iff_exists'.mp (Dict.find?_ofList_ne_none listed)
      exact named found
  | responseException code message =>
      have whole : finalReply (some code, some message) = true := by
        simpa [DeliveryResult.Ends, smtpSend] using ends
      simp [DeliveryResult.settles, DeliveryResult.refusal, smtpSend, whole, Table.empty,
        Table.find?]
  | transportFailure description =>
      -- no reply at all is retried
      simp [DeliveryResult.Ends, smtpSend, finalReply, classify] at ends

namespace Fleet
open Transition

/-- Some answer has settled the recipient. -/
def settled (s : Fleet) (id : Nat) (recipient : String) : Bool :=
  s.answers.any fun answer => answer.messageId = id && answer.result.settles recipient

/-- Answers come from the SMTP adapter. -/
def FromSmtp (s : Fleet) (l : Label) : Prop :=
  ∀ w result latencyMs jitter race a rest, l.action = .record w result latencyMs jitter race →
    (s.workers w).phase = .awaiting a rest →
    ∃ outcome : WireOutcome, outcome.Documented a.outbound.envelopeRecipients ∧
      result = smtpSend a.outbound.envelopeRecipients outcome

/-- An answer that ends a message before its last attempt holds final refusals only. -/
def EndsUniformly (s : Fleet) (l : Label) : Prop :=
  ∀ w result latencyMs jitter race a rest, l.action = .record w result latencyMs jitter race →
    (s.workers w).phase = .awaiting a rest → a.number < maxAttempts → result.Ends →
    result.AllFinal

/-- A delivery that passes the gate finds the host of its domain. -/
def HostKnown (D : Deployment) (s : Fleet) (l : Label) : Prop :=
  ∀ w fails id rest m mailbox domain, l.action = .deliver w fails →
    (s.workers w).phase = .serving (id :: rest) →
    deliveryRow s.db id = some (m, mailbox, domain) →
    (currentBudget s.db mailbox D.margin (s.clock + l.wait)).exhausted = false →
    domain.smtpHost ≠ none

theorem fromSmtp_of_quiet {s : Fleet} {l : Label} (quiet : l.action.answer? = none) :
    FromSmtp s l := by
  intro w result latencyMs jitter race a rest records
  rw [records] at quiet
  cases quiet

theorem endsUniformly_of_quiet {s : Fleet} {l : Label} (quiet : l.action.answer? = none) :
    EndsUniformly s l := by
  intro w result latencyMs jitter race a rest records
  rw [records] at quiet
  cases quiet

/-- The row of an attempt addresses the same recipients and has counted it. -/
def Tracks (s : Fleet) (a : Attempt) : Prop :=
  ∃ m, s.db.messages.find? a.messageId = some m ∧
    m.envelopeRecipients = a.outbound.envelopeRecipients ∧ a.number ≤ m.attempts

structure Accounted (s : Fleet) : Prop where
  underWay : ∀ w a, (s.workers w).phase.underWay = some a → s.Tracks a
  ended : ∀ id m, s.db.messages.find? id = some m → m.status.Terminal →
    ∀ recipient ∈ m.envelopeRecipients,
      s.settled id recipient = true ∨ maxAttempts ≤ m.attempts

theorem Initial.accounted {s : Fleet} (h : s.Initial) : Accounted s where
  underWay w a hw := by simp [h.workers w, Phase.underWay] at hw
  ended id m found := by simp [h.messages id] at found

variable {D : Deployment} {s t : Fleet} {l : Label} {now later : Time} {act : Action}

theorem settled_mono (h : s.answers ⊆ t.answers) {id : Nat} {recipient : String}
    (settled : s.settled id recipient = true) : t.settled id recipient = true := by
  obtain ⟨answer, mem, settles⟩ := List.any_eq_true.mp settled
  exact List.any_eq_true.mpr ⟨answer, h mem, settles⟩

theorem RowChange.attempts_le {m m' : Message} (c : RowChange D s now later act m m') :
    m.attempts ≤ m'.attempts := by
  rcases c.attempts with same | ⟨rfl, _⟩
  · exact same.ge
  · exact Nat.le_succ _

theorem Effect.tracks (e : Effect D s now later act t) {a : Attempt} (h : s.Tracks a) :
    t.Tracks a := by
  obtain ⟨m, found, recipients, counted⟩ := h
  cases e.row a.messageId with
  | same eq => exact ⟨m, eq.trans found, recipients, counted⟩
  | changed before after change =>
      obtain rfl := Option.some.inj (found.symm.trans before)
      exact ⟨_, after, change.letter.recipients.trans recipients,
        counted.trans change.attempts_le⟩
  | new _ before => rw [before] at found; cases found

/-- An attempt is under way because it was before, or because this step stamps it. -/
theorem Effect.underWay_tracked (e : Effect D s now later act t)
    (h : ∀ w a, (s.workers w).phase.underWay = some a → s.Tracks a) {w : String} {a : Attempt}
    (hw : (t.workers w).phase.underWay = some a) : t.Tracks a := by
  cases phase : (t.workers w).phase with
  | down | serving => simp [phase, Phase.underWay] at hw
  | stamped a' store rest =>
      rw [phase] at hw
      cases hw
      rcases e.stamped_of phase with old | ⟨fails, id, _, turn, _, opens⟩
      · exact e.tracks (h w a (by rw [old]; rfl))
      · cases opens with
        | @stamped m mailbox domain host _ row _ _ rewrites =>
            have found := (deliveryRow_eq_some.mp row).1
            obtain rfl := Table.key_of_find? found
            exact ⟨m.stamp later, rewrites.self found, rfl, le_refl _⟩
  | awaiting a' rest =>
      rw [phase] at hw
      cases hw
      rcases e.awaiting_of phase with old | ⟨store, old⟩ <;>
        exact e.tracks (h w a (by rw [old]; rfl))

/-- A recorded answer that leaves its message at its end ends it there, or was the
answer to the last attempt. -/
theorem ends_of_terminal {r : Recording} {m : Message} (terminal : (r.row m).status.Terminal) :
    r.result.Ends ∨ maxAttempts ≤ r.attempt := by
  cases (r.row_spec m).1 with
  | accepted success => exact .inl (.inl success)
  | deferred _ _ status => exact absurd terminal (by rw [status]; decide)
  | rejected _ final =>
      by_cases last : maxAttempts ≤ r.attempt
      · exact .inr last
      · have verdict : ¬ r.verdict.retryable = true :=
          fun retryable => final ⟨retryable, Nat.lt_of_not_le last⟩
        exact .inl (.inr (by simpa [finalReply, Recording.verdict] using verdict))

theorem Effect.accounted (e : Effect D s now later act t) (h : Accounted s)
    (smtp : ∀ w result latencyMs jitter race a rest,
      act = .record w result latencyMs jitter race → (s.workers w).phase = .awaiting a rest →
      ∃ outcome : WireOutcome, outcome.Documented a.outbound.envelopeRecipients ∧
        result = smtpSend a.outbound.envelopeRecipients outcome)
    (uniform : ∀ w result latencyMs jitter race a rest,
      act = .record w result latencyMs jitter race → (s.workers w).phase = .awaiting a rest →
      a.number < maxAttempts → result.Ends → result.AllFinal)
    (host : ∀ w fails id rest m mailbox domain, act = .deliver w fails →
      (s.workers w).phase = .serving (id :: rest) →
      deliveryRow s.db id = some (m, mailbox, domain) →
      (currentBudget s.db mailbox D.margin now).exhausted = false → domain.smtpHost ≠ none) :
    Accounted t := by
  refine ⟨fun w a hw => e.underWay_tracked h.underWay hw, ?_⟩
  intro id m' found terminal recipient mem
  cases e.row id with
  | same eq =>
      exact (h.ended id m' (eq ▸ found) terminal recipient mem).imp_left
        (settled_mono e.answers_subset)
  | new _ _ after stored =>
      obtain rfl := Option.some.inj (after.symm.trans found)
      exact absurd terminal (MessageStatus.Pending.not_terminal (.inl stored.fresh.1))
  | @changed m _ before after change =>
      obtain rfl := Option.some.inj (after.symm.trans found)
      obtain rfl := Table.key_of_find? before
      have older : m.status.Terminal → s.settled m.id recipient = true ∨ maxAttempts ≤ m.attempts :=
        fun terminal => h.ended m.id m before terminal recipient (change.letter.recipients ▸ mem)
      cases change with
      | claimed => exact absurd rfl terminal.ne_sending
      | released | held => exact absurd terminal (MessageStatus.Pending.not_terminal (.inl rfl))
      | reaped => exact absurd terminal (MessageStatus.Pending.not_terminal (.inr rfl))
      | undeliverable turn row room noHost =>
          exact absurd noHost (host _ _ _ _ _ _ _ rfl turn row room)
      | stamped =>
          exact (older terminal).imp (settled_mono e.answers_subset) Nat.le_succ_of_le
      | purged => exact (older terminal).imp_left (settled_mono e.answers_subset)
      | @recorded w result latencyMs jitter race a rest _ turn mine =>
          obtain ⟨m₁, found₁, recipients, counted⟩ := h.underWay w a (by rw [turn]; rfl)
          obtain rfl := Option.some.inj (before.symm.trans (mine ▸ found₁))
          have leaves := (Recording.row_spec ⟨result, a.number, latencyMs, jitter, now, later⟩ m).2
          by_cases last : maxAttempts ≤ a.number
          · exact .inr (last.trans (counted.trans leaves.attempts.ge))
          · have ends := (ends_of_terminal terminal).resolve_right last
            have final := uniform _ _ _ _ _ _ _ rfl turn (Nat.lt_of_not_le last) ends
            obtain ⟨outcome, documented, rfl⟩ := smtp _ _ _ _ _ _ _ rfl turn
            have settles := smtpSend_settles documented ends final
              (recipients ▸ leaves.letter.recipients ▸ mem)
            obtain ⟨a', _, turn', answers⟩ := e.answered
            cases turn.symm.trans turn'
            refine .inl (List.any_eq_true.mpr
              ⟨⟨a.messageId, smtpSend a.outbound.envelopeRecipients outcome⟩, ?_, ?_⟩)
            · rw [answers]
              exact List.mem_append_right _ (List.mem_singleton_self _)
            · simp [mine, settles]

theorem step_accounted (h : step D s l = some t) (smtp : FromSmtp s l)
    (uniform : EndsUniformly s l) (host : HostKnown D s l) (accounted : Accounted s) :
    Accounted t := by
  obtain ⟨u, e, rfl⟩ := effect_of_step D h
  obtain ⟨underWay, ended⟩ := e.accounted accounted smtp uniform host
  exact ⟨underWay, ended⟩

/-- In every run, with any number of workers: if no answer that ends a message
before its last attempt holds a refusal that would be retried on its own, and no
delivery finds its domain without a host, then every recipient of a message that
has reached its end was accepted, or refused for good, in some answer, or the
attempts are spent. -/
theorem no_recipient_dropped (start : s.Initial)
    (run : Reaches (step D)
      (fun s l => FromSmtp s l ∧ EndsUniformly s l ∧ HostKnown D s l) s t)
    {id : Nat} {m : Message} (found : t.db.messages.find? id = some m)
    (terminal : m.status.Terminal) :
    ∀ recipient ∈ m.envelopeRecipients,
      t.settled id recipient = true ∨ maxAttempts ≤ m.attempts :=
  (run.invariant start.accounted fun _ _ _ ⟨smtp, uniform, host⟩ h accounted =>
    step_accounted h smtp uniform host accounted).ended id m found terminal

end Fleet

/-! A letter to Ann and Bob; the server takes it for Ann and greylists Bob. -/
namespace Sample
open Transition Fleet

def both : List String := ["ann@example.net", "bob@example.net"]

def claimBoth : List Label :=
  [accept mailbox 1 "ann@example.net" ["bob@example.net"], claimBy "A" [1]]

def claimedBoth : Fleet := final (step deployment) (solo mailbox) claimBoth

def callBoth : List Label := [now (.deliver "A" false), now (.send "A")]

def awaitingBoth : Fleet := final (step deployment) claimedBoth callBoth

def bobGreylisted : WireOutcome :=
  .returned (Dict.ofList [("bob@example.net", (451, "greylisted"))]) "OK"

def bothTaken : WireOutcome := .returned Table.empty "OK"

def answer (outcome : WireOutcome) : List Label := [recordBy "A" (smtpSend both outcome)]

def answered (outcome : WireOutcome) : Fleet :=
  final (step deployment) awaitingBoth (answer outcome)

/-- What the runs are inspected for. -/
def bob (s : Fleet) : Option (MessageStatus × List String × Nat) × Bool :=
  ((s.db.messages.find? 1).map fun m => (m.status, m.envelopeRecipients, m.attempts),
    s.settled 1 "bob@example.net")

theorem claimsBoth : (execute (step deployment) (solo mailbox) claimBoth).map
    (fun s => s.db.domains.rows.all fun d => d.smtpHost.isSome) = some true := by decide +kernel

theorem callsBoth : (execute (step deployment) claimedBoth callBoth).map
    (fun s => (s.workers "A").phase.underWay.map fun a => a.outbound.envelopeRecipients) =
      some (some both) := by decide +kernel

/-- The answer that worker A records comes from the adapter. -/
theorem answer_fromSmtp {outcome : WireOutcome} (documented : outcome.Documented both) :
    FromSmtp awaitingBoth (recordBy "A" (smtpSend both outcome)) := by
  rintro w result latencyMs jitter race a rest ⟨⟩ turn
  have recipients : (awaitingBoth.workers "A").phase.underWay.map
      (fun a => a.outbound.envelopeRecipients) = some both := view_final callsBoth
  rw [turn] at recipients
  have same : a.outbound.envelopeRecipients = both := Option.some.inj recipients
  exact ⟨outcome, same ▸ documented, by rw [same]⟩

/-- The whole run, for a restriction that concerns deliveries and recordings only. -/
theorem answered_run {allowed : Fleet → Label → Prop} {outcome : WireOutcome}
    {b : Option (MessageStatus × List String × Nat) × Bool}
    (idle : ∀ s l, l.action.answer? = none → (∀ w fails, l.action ≠ .deliver w fails) → allowed s l)
    (delivers : allowed claimedBoth (now (.deliver "A" false)))
    (records : allowed awaitingBoth (recordBy "A" (smtpSend both outcome)))
    (run : (execute (step deployment) awaitingBoth (answer outcome)).map bob = some b) :
    Reaches (step deployment) allowed (fleet mailbox) (answered outcome) ∧
      bob (answered outcome) = b := by
  have starts : Reaches (step deployment) allowed (fleet mailbox) (solo mailbox) :=
    started (idle _ _ rfl (by simp [now]))
  have claims : Reaches (step deployment) allowed (solo mailbox) claimedBoth := by
    refine (reaches_final _ claimsBoth fun l mem s => ?_).1
    rcases List.mem_cons.mp mem with rfl | mem
    · exact idle s _ rfl (by simp [accept, now])
    · obtain rfl := List.mem_singleton.mp mem
      exact idle s _ rfl (by simp [claimBy, now])
  have calls : Reaches (step deployment) allowed claimedBoth awaitingBoth := by
    refine (reaches_final_cons _ callsBoth delivers fun l mem s => ?_).1
    obtain rfl := List.mem_singleton.mp mem
    exact idle s _ rfl (by simp [now])
  obtain ⟨ends, seen⟩ : Reaches (step deployment) allowed awaitingBoth (answered outcome) ∧ _ :=
    reaches_final_cons _ run records (by simp)
  exact ⟨((starts.trans claims).trans calls).trans ends, seen⟩

end Sample

/-- The message ends with the first answer; Bob, who was only deferred, is dropped. -/
theorem greylisted_recipient_dropped :
    Transition.Reaches (Fleet.step Sample.deployment) Fleet.FromSmtp
      (Sample.fleet Sample.mailbox) (Sample.answered Sample.bobGreylisted) ∧
    Sample.bob (Sample.answered Sample.bobGreylisted) =
      (some (.acceptedByProvider, Sample.both, 1), false) := by
  exact Sample.answered_run (fun _ _ quiet _ => Fleet.fromSmtp_of_quiet quiet)
    (Fleet.fromSmtp_of_quiet rfl) (Sample.answer_fromSmtp trivial) (by decide +kernel)

theorem both_recipients_settled :
    ∃ m, (Sample.answered Sample.bothTaken).db.messages.find? 1 = some m ∧ m.status.Terminal ∧
      ∀ recipient ∈ m.envelopeRecipients,
        (Sample.answered Sample.bothTaken).settled 1 recipient = true ∨
          maxAttempts ≤ m.attempts := by
  obtain ⟨run, seen⟩ : Transition.Reaches (Fleet.step Sample.deployment)
      (fun s l => Fleet.FromSmtp s l ∧ Fleet.EndsUniformly s l ∧
        Fleet.HostKnown Sample.deployment s l) (Sample.fleet Sample.mailbox)
      (Sample.answered Sample.bothTaken) ∧ Sample.bob (Sample.answered Sample.bothTaken) =
        (some (.acceptedByProvider, Sample.both, 1), true) := by
    refine Sample.answered_run (fun s l quiet other => ⟨Fleet.fromSmtp_of_quiet quiet,
      Fleet.endsUniformly_of_quiet quiet, ?_⟩) ⟨Fleet.fromSmtp_of_quiet rfl,
      Fleet.endsUniformly_of_quiet rfl, ?_⟩ ⟨Sample.answer_fromSmtp trivial, ?_, ?_⟩
      (by decide +kernel)
    · exact fun w fails _ _ _ _ _ delivers => absurd delivers (other w fails)
    · intro _ _ _ _ m mailbox domain _ _ row _ noHost
      have hosts : (Sample.claimedBoth.db.domains.rows.all fun d => d.smtpHost.isSome) = true :=
        Transition.view_final Sample.claimsBoth
      have known := List.all_eq_true.mp hosts domain
        (Table.mem_of_find? (deliveryRow_eq_some.mp row).2.2)
      simp [noHost] at known
    · rintro _ _ _ _ _ _ _ ⟨⟩ _ _ _ p mem
      exact absurd mem (Table.not_mem_empty p)
    · simp [Fleet.HostKnown, Sample.recordBy, Sample.now]
  have row : ((Sample.answered Sample.bothTaken).db.messages.find? 1).map
      (fun m => (m.status, m.envelopeRecipients, m.attempts)) =
        some (.acceptedByProvider, Sample.both, 1) := congrArg Prod.fst seen
  obtain ⟨m, found, view⟩ := Option.map_eq_some_iff.mp row
  have ended : m.status.Terminal := .inl (congrArg Prod.fst view)
  exact ⟨m, found, ended, Fleet.no_recipient_dropped (Sample.fleet_initial _) run found ended⟩

end Emaild
