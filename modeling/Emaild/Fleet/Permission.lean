import Emaild.Fleet.Recipients

/-!
What acceptance has checked, and how long it stays true. The suppression list, the
status of the domain and the activity of the mailbox are looked at when a request
is accepted and never again, so a message that waits is sent on the permission it
came in with.
-/
namespace Emaild
open Relational Transition

namespace Fleet

variable {D : Deployment} {s t : Fleet} {l : Label} {now later : Time} {act : Action}

/-! The suppression list. -/

/-- Some step of the run has accepted the message, when no normal form of a recipient
was on the suppression list. -/
def AcceptedClean (D : Deployment) (start t : Fleet) (id : Nat) (recipients : List String) : Prop :=
  ∃ p l q, Reaches (step D) Any start p ∧ step D p l = some q ∧ Reaches (step D) Any q t ∧
    (∃ principal request key draw, l.action = .ingest principal request key draw) ∧
    p.db.messages.find? id = none ∧
    (∃ m, q.db.messages.find? id = some m ∧ m.envelopeRecipients = recipients) ∧
    ∀ r ∈ recipients, ∀ n, normaliseAddress D.rt r = .ok n → ¬ p.db.suppressed n

theorem AcceptedClean.next {start : Fleet} {id : Nat} {recipients : List String}
    (h : AcceptedClean D start s id recipients) (moves : step D s l = some t) :
    AcceptedClean D start t id recipients := by
  obtain ⟨p, l', q, before, accepts, after, rest⟩ := h
  exact ⟨p, l', q, before, accepts, .next l after trivial moves, rest⟩

/-- Every row and every call goes back to such a step. -/
structure Traced (D : Deployment) (start s : Fleet) : Prop where
  rows : ∀ id m, s.db.messages.find? id = some m → AcceptedClean D start s id m.envelopeRecipients
  underWay : ∀ w a, (s.workers w).phase.underWay = some a → s.Tracks a
  calls : ∀ c ∈ s.wire,
    AcceptedClean D start s c.attempt.messageId c.attempt.outbound.envelopeRecipients

theorem Initial.traced (h : s.Initial) : Traced D s s where
  rows id m found := by simp [h.messages id] at found
  underWay w a hw := by simp [h.workers w, Phase.underWay] at hw
  calls c hc := by simp [h.wire] at hc

theorem step_traced {start : Fleet} (run : Reaches (step D) Any start s)
    (moves : step D s l = some t) (h : Traced D start s) : Traced D start t := by
  obtain ⟨u, e, rfl⟩ := effect_of_step D moves
  refine ⟨fun id m found => ?_, fun w a hw => ?_, fun c hc => ?_⟩
  · cases e.row id with
    | same eq => exact (h.rows id m (eq ▸ found)).next moves
    | changed before after change =>
        obtain rfl := Option.some.inj (after.symm.trans found)
        exact change.letter.recipients ▸ (h.rows id _ before).next moves
    | new ingest before after stored =>
        obtain rfl := Option.some.inj (after.symm.trans found)
        obtain ⟨_, _, checked, _⟩ := stored.checked
        exact ⟨s, l, _, run, moves, .refl, ⟨_, _, _, _, ingest⟩, before, ⟨_, found, rfl⟩,
          fun r mem => (checked.unreported r mem).2⟩
  · exact e.underWay_tracked h.underWay hw
  · rcases e.wire with same | ⟨w, a, store, rest, turn, _, sent⟩
    · exact (h.calls c (same ▸ hc)).next moves
    · rcases List.mem_append.mp (sent ▸ hc) with old | new
      · exact (h.calls c old).next moves
      · obtain rfl := List.mem_singleton.mp new
        obtain ⟨m, found, recipients, _⟩ := h.underWay w a (by rw [turn]; rfl)
        exact recipients ▸ (h.rows _ m found).next moves

/-- In every run, each call of the adapter is for a message that an earlier step
accepted when no normal form of the call's recipients was on the suppression list. -/
theorem calls_accepted_clean (start : s.Initial) (run : Reaches (step D) Any s t) :
    ∀ c ∈ t.wire,
      AcceptedClean D s t c.attempt.messageId c.attempt.outbound.envelopeRecipients :=
  (run.invariantAlong start.traced fun _ _ _ before _ moves h => step_traced before moves h).calls

/-! The mailbox and its domain. -/

/-- A message of the mailbox is on its way, or in a worker's hands. -/
def Busy (s : Fleet) (mailboxId : Nat) : Prop :=
  ∃ id m, s.db.messages.find? id = some m ∧ m.mailboxId = mailboxId ∧
    (¬ m.status.Terminal ∨ ∃ w, id ∈ s.held w)

/-- A sender identity loses its permission only while none of its messages is on
its way, and what a request's principal says of its identities is still so. -/
structure WithdrawsIdle (s : Fleet) (l : Label) : Prop where
  withdrawn : ∀ domainId status smtpHost, l.action = .changeDomain domainId status smtpHost →
    status ≠ .ready → ∀ mailbox ∈ s.db.mailboxes, mailbox.domainId = domainId →
      ¬ s.Busy mailbox.id
  deactivated : ∀ mailboxId, l.action = .setMailboxActive mailboxId false → ¬ s.Busy mailboxId
  current : ∀ principal request key draw, l.action = .ingest principal request key draw →
    ∀ address identity, principal.mailboxes.get? address = some identity →
      identity.mailbox.active = true → identity.domain.status = .ready →
      s.db.Sendable identity.mailbox.id

/-- Messages on their way, attempts that are stamped and calls have permission. -/
structure Cleared (s : Fleet) : Prop where
  busy : ∀ mailboxId, s.Busy mailboxId → s.db.Sendable mailboxId
  stamped : ∀ w a store rest, (s.workers w).phase = .stamped a store rest →
    ∀ time, (Call.mk a store time).Permitted
  calls : ∀ c ∈ s.wire, c.Permitted

theorem Initial.cleared (h : s.Initial) : Cleared s where
  busy mailboxId := by
    rintro ⟨id, m, found, _⟩
    simp [h.messages id] at found
  stamped w a store rest hw := by simp [h.workers w] at hw
  calls c hc := by simp [h.wire] at hc

/-- A message is in a worker's hands because it was before, or because it was
pending and is claimed. -/
theorem Effect.held_of (e : Effect D s now later act t) {w : String} {id : Nat}
    (hid : id ∈ t.held w) :
    id ∈ s.held w ∨ ∃ m, s.db.messages.find? id = some m ∧ m.status.Pending := by
  have moved : ∀ (u : Fleet) (w' : String) (phase : Phase), u.workers = s.workers →
      phase.held ⊆ s.held w' → id ∈ (u.moveTo w' phase).held w → id ∈ s.held w := by
    intro u w' phase same part hid
    by_cases eq : w = w'
    · subst eq
      rw [held_moveTo_self] at hid
      exact part hid
    · rw [held_moveTo_ne _ eq, held, same] at hid
      exact hid
  cases e with
  | @process _ w' p quiet _ _ =>
      refine .inl ?_
      by_cases eq : w = w'
      · subst eq
        rw [held_setProcess_self] at hid
        rcases quiet with same | down | idle
        · rw [same] at hid
          exact hid
        · simp [down, Phase.held] at hid
        · simp [idle, Phase.held] at hid
      · rw [held_setProcess_ne _ eq] at hid
        exact hid
  | @claimed w' locked order idle perm =>
      by_cases eq : w = w'
      · subst eq
        rw [held_moveTo_self] at hid
        obtain ⟨m, mem, rfl, due⟩ := due_of_mem_dueMessages (perm.mem_iff.mp hid)
        simp only [Message.due, Bool.and_eq_true, decide_eq_true_eq] at due
        exact .inr ⟨m, Table.find?_of_mem mem, due.1⟩
      · rw [held_moveTo_ne _ eq] at hid
        exact .inl hid
  | released turn =>
      refine .inl (moved _ _ _ rfl ?_ hid)
      rw [held_of_phase turn]
      exact List.subset_cons_self ..
  | @opened w' fails id' rest opening db turn opens =>
      refine .inl (moved _ _ _ rfl ?_ hid)
      rw [held_of_phase turn]
      cases opens with
      | stamped row _ _ _ =>
          obtain rfl := Table.key_of_find? (deliveryRow_eq_some.mp row).1
          exact List.Subset.refl _
      | _ => exact List.subset_cons_self ..
  | sent turn =>
      refine .inl (moved _ _ _ rfl ?_ hid)
      rw [held_of_phase turn]
      exact List.Subset.refl _
  | recorded turn fewer =>
      refine .inl (moved _ _ _ rfl ?_ hid)
      rw [held_of_phase turn]
      exact List.subset_cons_of_subset _ fewer.subset
  | _ => exact .inl hid

/-- Only a message that was on its way, or in a worker's hands, is on its way
after a change. -/
theorem RowChange.goes {m m' : Message} (c : RowChange D s now later act m m')
    (going : ¬ m'.status.Terminal) : ¬ m.status.Terminal ∨ ∃ w, m.id ∈ s.held w := by
  cases c with
  | claimed _ _ due =>
      simp only [Message.due, Bool.and_eq_true, decide_eq_true_eq] at due
      exact .inl due.1.not_terminal
  | released turn | held turn | stamped turn | undeliverable turn =>
      exact .inr ⟨_, mem_held turn (List.mem_cons_self ..)⟩
  | recorded turn mine => exact .inr ⟨_, mem_held turn (mine ▸ List.mem_cons_self ..)⟩
  | reaped _ stale =>
      simp only [Message.stale, Bool.and_eq_true, decide_eq_true_eq] at stale
      exact .inl fun terminal => terminal.ne_sending stale.1
  | purged => exact .inl going

/-- A mailbox is busy because it was before, or because it accepts a message. -/
theorem Effect.busy_of (e : Effect D s now later act t) {mailboxId : Nat}
    (busy : t.Busy mailboxId) : s.Busy mailboxId ∨
      ∃ principal request key draw m, act = .ingest principal request key draw ∧
        Accepted D.rt principal request draw now s.db t.db m ∧ m.mailboxId = mailboxId := by
  obtain ⟨id, m', found, box, why⟩ := busy
  cases e.row id with
  | new ingest _ after stored =>
      obtain rfl := Option.some.inj (after.symm.trans found)
      exact .inr ⟨_, _, _, _, _, ingest, stored, box⟩
  | same eq =>
      refine .inl ⟨id, m', eq ▸ found, box, ?_⟩
      rcases why with going | ⟨w, hid⟩
      · exact .inl going
      · rcases e.held_of hid with holds | ⟨m, before, pending⟩
        · exact .inr ⟨w, holds⟩
        · obtain rfl := Option.some.inj (before.symm.trans (eq ▸ found))
          exact .inl pending.not_terminal
  | @changed m _ before after change =>
      obtain rfl := Option.some.inj (after.symm.trans found)
      obtain rfl := Table.key_of_find? before
      refine .inl ⟨m.id, m, before, change.letter.mailboxId.symm.trans box, ?_⟩
      rcases why with going | ⟨w, hid⟩
      · exact change.goes going
      · rcases e.held_of hid with holds | ⟨m₁, before₁, pending⟩
        · exact .inr ⟨w, holds⟩
        · obtain rfl := Option.some.inj (before.symm.trans before₁)
          exact .inl pending.not_terminal

/-- A busy mailbox keeps its permission. -/
theorem Effect.sendable (e : Effect D s now later act t) {mailboxId : Nat}
    (sendable : s.db.Sendable mailboxId) (busy : s.Busy mailboxId)
    (withdrawn : ∀ domainId status smtpHost, act = .changeDomain domainId status smtpHost →
      status ≠ .ready → ∀ mailbox ∈ s.db.mailboxes, mailbox.domainId = domainId →
        ¬ s.Busy mailbox.id)
    (deactivated : ∀ mailboxId, act = .setMailboxActive mailboxId false → ¬ s.Busy mailboxId) :
    t.db.Sendable mailboxId := by
  obtain ⟨mailbox, domain, found, active, there, ready⟩ := sendable
  obtain ⟨mailbox', found', active', same⟩ : ∃ mailbox', t.db.mailboxes.find? mailboxId =
      some mailbox' ∧ mailbox'.active = true ∧ mailbox'.domainId = mailbox.domainId := by
    cases e.mailbox mailboxId with
    | same eq => exact ⟨mailbox, eq.trans found, active, rfl⟩
    | @changed on set eq =>
        rw [found] at eq
        cases on with
        | true => exact ⟨_, eq, rfl, rfl⟩
        | false => exact absurd busy (deactivated mailboxId set)
  cases e.domain mailbox.domainId with
  | same eq => exact ⟨mailbox', domain, found', active', same ▸ eq.trans there, ready⟩
  | @changed status smtpHost set eq =>
      rw [there] at eq
      by_cases stays : status = .ready
      · exact ⟨mailbox', _, found', active', same ▸ eq, stays⟩
      · have id := Table.key_of_find? found
        exact absurd (id ▸ busy)
          (withdrawn _ _ _ set stays mailbox (Table.mem_of_find? found) rfl)

theorem step_cleared (h : step D s l = some t) (idle : WithdrawsIdle s l) (cleared : Cleared s) :
    Cleared t := by
  obtain ⟨u, e, rfl⟩ := effect_of_step D h
  refine ⟨fun mailboxId busy => ?_, fun w a store rest hw time => ?_, fun c hc => ?_⟩
  · rcases e.busy_of busy with before | ⟨principal, request, key, draw, m, ingest, stored, rfl⟩
    · exact e.sendable (cleared.busy mailboxId before) before idle.withdrawn idle.deactivated
    · obtain ⟨_, identity, checked, box⟩ := stored.checked
      obtain ⟨⟨address, listed⟩, active, ready⟩ := authorizeSender_ok checked.authorized
      obtain ⟨mailbox, domain, found, rest⟩ :=
        idle.current principal request key draw ingest address identity listed active ready
      exact ⟨mailbox, domain, by rw [box, stored.stored.mailboxes]; exact found,
        by rw [stored.stored.domains]; exact rest⟩
  · rcases e.stamped_of hw with old | ⟨fails, id, _, turn, rfl, opens⟩
    · exact cleared.stamped w a store rest old time
    · cases opens with
      | @stamped m mailbox domain host _ row _ _ _ =>
          obtain ⟨found, box, there⟩ := deliveryRow_eq_some.mp row
          obtain rfl := Table.key_of_find? found
          obtain ⟨mailbox', domain', box', active, there', ready⟩ := cleared.busy m.mailboxId
            ⟨m.id, m, found, rfl, .inr ⟨w, mem_held turn (List.mem_cons_self ..)⟩⟩
          obtain rfl := Option.some.inj (box.symm.trans box')
          obtain rfl := Option.some.inj (there.symm.trans there')
          exact ⟨m, mailbox, domain, row, active, ready⟩
  · rcases e.wire with same | ⟨w, a, store, rest, turn, _, sent⟩
    · exact cleared.calls c (same ▸ hc)
    · rcases List.mem_append.mp (sent ▸ hc) with old | new
      · exact cleared.calls c old
      · obtain rfl := List.mem_singleton.mp new
        exact cleared.stamped w a store rest turn _

/-- In every run in which domains and mailboxes lose their permission only while
none of their messages is on its way, each call is stamped with the mailbox active
and the domain ready. -/
theorem calls_permitted (start : s.Initial) (run : Reaches (step D) WithdrawsIdle s t) :
    ∀ c ∈ t.wire, c.Permitted :=
  (run.invariant start.cleared fun _ _ _ idle h cleared => step_cleared h idle cleared).calls

end Fleet

/-! A letter that waits while its recipient, or its sender, is taken off. -/
namespace Sample
open Fleet

def sendAnn : List Label := [claimBy "A" [1], now (.deliver "A" false), now (.send "A")]

def undisturbed : List Label := accept mailbox 1 "ann@example.net" [] :: sendAnn

def sent : Fleet := final (step deployment) (solo mailbox) undisturbed

def overtakenBy (event : Action) : List Label :=
  accept mailbox 1 "ann@example.net" [] :: now event :: sendAnn

def sentDespite (event : Action) : Fleet :=
  final (step deployment) (solo mailbox) (overtakenBy event)

def suppressAnn : Action := .suppress "ann@example.net" .manual none none

def suspendDomain : Action := .changeDomain 1 .suspended (some "mx.example")

def deactivateMailbox : Action := .setMailboxActive 1 false

/-- Whether the mailbox was active when the attempt was stamped, and how its domain stood. -/
def sender (c : Call) : Option (Bool × DomainStatus) :=
  (deliveryRow c.store c.attempt.messageId).map fun row => (row.2.1.active, row.2.2.status)

theorem sender_of_permitted {c : Call} (h : c.Permitted) : sender c = some (true, .ready) := by
  obtain ⟨m, mailbox, domain, row, active, ready⟩ := h
  simp [sender, row, active, ready]

theorem not_permitted_of_sender {calls : List Call}
    (h : (calls.any fun c => sender c ≠ some (true, .ready)) = true) :
    ∃ c ∈ calls, ¬ c.Permitted := by
  obtain ⟨c, mem, other⟩ := List.any_eq_true.mp h
  exact ⟨c, mem, fun permitted => by simp [sender_of_permitted permitted] at other⟩

theorem sentDespite_run (event : Action) (view : Fleet → Bool) (run : (execute (step deployment)
    (solo mailbox) (overtakenBy event)).map view = some true) :
    Reaches (step deployment) Any (fleet mailbox) (sentDespite event) ∧
      view (sentDespite event) = true := by
  obtain ⟨rest, seen⟩ : Reaches (step deployment) Any (solo mailbox) (sentDespite event) ∧ _ :=
    reaches_final view run fun _ _ _ => trivial
  exact ⟨(started trivial).trans rest, seen⟩

/-- Whether a call had a suppressed recipient. -/
def someSuppressed (s : Fleet) : Bool :=
  s.wire.any fun c => c.attempt.outbound.envelopeRecipients.any fun r => c.store.suppressed r

def someUnpermitted (s : Fleet) : Bool := s.wire.any fun c => sender c ≠ some (true, .ready)

theorem sentOneCall : (execute (step deployment) (solo mailbox) undisturbed).map
    (fun s => s.wire.length) = some 1 := by decide +kernel

/-- The principal of the letter says of its only identity what the store says. -/
theorem accept_withdrawsIdle : WithdrawsIdle (solo mailbox)
    (accept mailbox 1 "ann@example.net" []) where
  withdrawn := nofun
  deactivated := nofun
  current := by
    rintro _ _ _ _ ⟨⟩ address identity listed _ _
    obtain ⟨p, found, rfl⟩ := Option.map_eq_some_iff.mp listed
    have only : ∀ p ∈ (principal mailbox).mailboxes.rows, p.2.mailbox.id = 1 := by decide
    rw [only p (Table.mem_of_find? found)]
    exact ⟨mailbox, domain, rfl, rfl, rfl, rfl⟩

theorem start_withdrawsIdle (s : Fleet) : WithdrawsIdle s (now (.start "A")) := by
  constructor <;> simp [now]

theorem sendAnn_withdrawsIdle : ∀ l ∈ sendAnn, ∀ s, WithdrawsIdle s l := by
  intro l mem s
  simp only [sendAnn, List.mem_cons, List.not_mem_nil, or_false] at mem
  rcases mem with rfl | rfl | rfl <;> constructor <;> simp [now, claimBy]

end Sample

/-- A suppression that comes after the acceptance does not stop the letter. -/
theorem suppressed_recipient_is_sent_to :
    Reaches (Fleet.step Sample.deployment) Any (Sample.fleet Sample.mailbox)
      (Sample.sentDespite Sample.suppressAnn) ∧
    ∃ c ∈ (Sample.sentDespite Sample.suppressAnn).wire,
      ∃ r ∈ c.attempt.outbound.envelopeRecipients, c.store.suppressed r := by
  obtain ⟨run, seen⟩ := Sample.sentDespite_run Sample.suppressAnn Sample.someSuppressed
    (by decide +kernel)
  obtain ⟨c, mem, reached⟩ := List.any_eq_true.mp seen
  obtain ⟨r, recipient, suppressed⟩ := List.any_eq_true.mp reached
  exact ⟨run, c, mem, r, recipient, of_decide_eq_true suppressed⟩

theorem sent_call_accepted_clean :
    Sample.sent.wire.length = 1 ∧ ∀ c ∈ Sample.sent.wire,
      Fleet.AcceptedClean Sample.deployment (Sample.fleet Sample.mailbox) Sample.sent
        c.attempt.messageId c.attempt.outbound.envelopeRecipients := by
  obtain ⟨rest, once⟩ : Reaches (Fleet.step Sample.deployment) Any _ Sample.sent ∧ _ :=
    reaches_final _ Sample.sentOneCall fun _ _ _ => trivial
  exact ⟨once, Fleet.calls_accepted_clean (Sample.fleet_initial _)
    ((Sample.started trivial).trans rest)⟩

/-- Neither does a suspension of the domain, nor the end of the mailbox. -/
theorem letter_outlives_its_permission :
    (Reaches (Fleet.step Sample.deployment) Any (Sample.fleet Sample.mailbox)
      (Sample.sentDespite Sample.suspendDomain) ∧
      ∃ c ∈ (Sample.sentDespite Sample.suspendDomain).wire, ¬ c.Permitted) ∧
    Reaches (Fleet.step Sample.deployment) Any (Sample.fleet Sample.mailbox)
      (Sample.sentDespite Sample.deactivateMailbox) ∧
      ∃ c ∈ (Sample.sentDespite Sample.deactivateMailbox).wire, ¬ c.Permitted := by
  obtain ⟨suspends, seen⟩ := Sample.sentDespite_run Sample.suspendDomain Sample.someUnpermitted
    (by decide +kernel)
  obtain ⟨deactivates, seen'⟩ :=
    Sample.sentDespite_run Sample.deactivateMailbox Sample.someUnpermitted
    (by decide +kernel)
  exact ⟨⟨suspends, Sample.not_permitted_of_sender seen⟩, deactivates,
    Sample.not_permitted_of_sender seen'⟩

theorem sent_call_permitted :
    Sample.sent.wire.length = 1 ∧ ∀ c ∈ Sample.sent.wire, c.Permitted := by
  have started : Reaches (Fleet.step Sample.deployment) Fleet.WithdrawsIdle _
      (Sample.solo Sample.mailbox) :=
    Sample.started (Sample.start_withdrawsIdle _)
  obtain ⟨rest, once⟩ : Reaches (Fleet.step Sample.deployment) Fleet.WithdrawsIdle _
      Sample.sent ∧ _ :=
    reaches_final_cons _ Sample.sentOneCall Sample.accept_withdrawsIdle
      Sample.sendAnn_withdrawsIdle
  exact ⟨once, Fleet.calls_permitted (Sample.fleet_initial _) (started.trans rest)⟩

end Emaild
