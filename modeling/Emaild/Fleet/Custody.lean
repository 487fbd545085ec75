import Emaild.Fleet.Steps

/-!
Who has a message in hand. While the reaper takes back nothing that a live worker
still holds, a held message is SENDING and has one holder, and a message that has
reached its end stays there. The claim alone does not give this: nothing that a
worker does after it checks whether it still has the message.
-/
namespace Emaild.Fleet
open Relational Transition

/-- Held messages are in flight, each in the hands of one worker, once. -/
structure Custody (s : Fleet) : Prop where
  sending : ∀ w, ∀ id ∈ s.held w, ∃ m, s.db.messages.find? id = some m ∧ m.status = .sending
  nodup : ∀ w, (s.held w).Nodup
  single : ∀ w w', ∀ id ∈ s.held w, id ∈ s.held w' → w = w'

/-- A reaping takes back only messages that no worker holds. -/
def ReapsAbandoned (s : Fleet) (l : Label) : Prop :=
  ∀ w, l.action = .reap w → ∀ m ∈ s.db.messages,
    m.stale (s.clock + l.wait - staleClaimAfter) = true → ∀ w', m.id ∉ s.held w'

section Held
variable {s : Fleet} {w : String}

@[simp] theorem held_setProcess_self (p : Process) : (s.setProcess w p).held w = p.phase.held := by
  simp [held]

theorem held_setProcess_ne (p : Process) {w' : String} (h : w' ≠ w) :
    (s.setProcess w p).held w' = s.held w' := by
  simp [held, setProcess_workers_ne _ _ _ h]

@[simp] theorem held_moveTo_self (phase : Phase) : (s.moveTo w phase).held w = phase.held := by
  simp [held]

theorem held_moveTo_ne (phase : Phase) {w' : String} (h : w' ≠ w) :
    (s.moveTo w phase).held w' = s.held w' := by
  simp [held, moveTo_phase_ne _ _ _ h]

theorem held_of_phase {phase : Phase} (h : (s.workers w).phase = phase) :
    s.held w = phase.held := congrArg Phase.held h

theorem mem_held {phase : Phase} (h : (s.workers w).phase = phase) {id : Nat}
    (mem : id ∈ phase.held) : id ∈ s.held w :=
  held_of_phase h ▸ mem

end Held

theorem Initial.custody {s : Fleet} (h : s.Initial) : Custody s := by
  have nothing : ∀ w, s.held w = [] := fun w => held_of_phase (h.workers w)
  constructor <;> simp [nothing]

section Preserved
variable {s t : Fleet}

/-- A step after which workers hold no more, and what they hold is still in
flight. -/
theorem Custody.shrink (h : Custody s) (fewer : ∀ w, (t.held w).Sublist (s.held w))
    (rows : ∀ w, ∀ id ∈ t.held w, ∀ m, s.db.messages.find? id = some m → m.status = .sending →
      ∃ m', t.db.messages.find? id = some m' ∧ m'.status = .sending) : Custody t where
  sending w id hid := by
    obtain ⟨m, found, sending⟩ := h.sending w id ((fewer w).subset hid)
    exact rows w id hid m found sending
  nodup w := (h.nodup w).sublist (fewer w)
  single w w' id hid hid' := h.single w w' id ((fewer w).subset hid) ((fewer w').subset hid')

/-- A step after which workers hold what they held, still in flight. -/
theorem Custody.keep (h : Custody s) (same : ∀ w, t.held w = s.held w)
    (rows : ∀ w, ∀ id ∈ s.held w, ∀ m, s.db.messages.find? id = some m → m.status = .sending →
      ∃ m', t.db.messages.find? id = some m' ∧ m'.status = .sending) : Custody t :=
  h.shrink (fun w => same w ▸ .refl _) fun w id hid => rows w id (same w ▸ hid)

/-- Only the row of a message changes that its holder then gives up. -/
theorem Custody.giveUp (h : Custody s) {w : String} {id : Nat} {rest ids : List Nat}
    (holds : s.held w = id :: rest) (less : ids.Sublist rest) (now : t.held w = ids)
    (others : ∀ w', w' ≠ w → t.held w' = s.held w')
    (rows : ∀ id', id' ≠ id → t.db.messages.find? id' = s.db.messages.find? id') :
    Custody t := by
  have fewer : ∀ w', (t.held w').Sublist (s.held w') := by
    intro w'
    by_cases eq : w' = w
    · subst eq
      rw [now, holds]
      exact less.trans (List.sublist_cons_self ..)
    · rw [others w' eq]
  refine h.shrink fewer fun w' id' hid' m found sending => ⟨m, ?_, sending⟩
  rw [rows id' ?_, found]
  rintro rfl
  by_cases eq : w' = w
  · subst eq
    have distinct := holds ▸ h.nodup w'
    exact (List.nodup_cons.mp distinct).1 (less.subset (now ▸ hid'))
  · exact eq (h.single w' w id' (others w' eq ▸ hid') (by simp [holds]))

variable {D : Deployment} {now later : Time} {act : Action}

/-- A due row is pending, so nobody holds it yet. -/
theorem Custody.free_of_due (h : Custody s) {locked : Nat → Bool} {limit id : Nat}
    (taken : id ∈ dueMessages s.db locked limit now) (w : String) : id ∉ s.held w := by
  intro holds
  obtain ⟨m, mem, rfl, due⟩ := due_of_mem_dueMessages taken
  obtain ⟨m', found, sending⟩ := h.sending w m.id holds
  obtain rfl := Table.eq_of_key_eq mem (Table.mem_of_find? found) (Table.key_of_find? found).symm
  simp only [Message.due, Bool.and_eq_true, decide_eq_true_eq] at due
  exact due.1.ne_sending sending

theorem Custody.claim (h : Custody s) (w : String) {locked : Nat → Bool} {order : List Nat}
    (perm : order.Perm (dueMessages s.db locked batchSize now)) :
    Custody ({ s with db := (claimMessages s.db locked w batchSize now).2 }.moveTo w
      (.serving order)) := by
  have free : ∀ id ∈ order, ∀ w', id ∉ s.held w' :=
    fun id taken => h.free_of_due (perm.mem_iff.mp taken)
  refine ⟨fun w' id hid => ?_, fun w' => ?_, fun w₁ w₂ id h₁ h₂ => ?_⟩
  · rw [moveTo_db, find?_claimMessages]
    by_cases eq : w' = w
    · subst eq
      rw [held_moveTo_self] at hid
      have taken := perm.mem_iff.mp hid
      obtain ⟨m, mem, rfl, _⟩ := due_of_mem_dueMessages taken
      rw [Table.find?_of_mem mem, Option.map_some, if_pos taken]
      exact ⟨_, rfl, rfl⟩
    · rw [held_moveTo_ne _ eq] at hid
      obtain ⟨m, found, sending⟩ := h.sending w' id hid
      rw [found, Option.map_some]
      refine ⟨_, rfl, ?_⟩
      split
      · rfl
      · exact sending
  · by_cases eq : w' = w
    · subst eq
      rw [held_moveTo_self]
      exact perm.nodup_iff.mpr (dueMessages_nodup ..)
    · rw [held_moveTo_ne _ eq]
      exact h.nodup w'
  · by_cases eq₁ : w₁ = w <;> by_cases eq₂ : w₂ = w
    · exact eq₁.trans eq₂.symm
    · subst eq₁
      rw [held_moveTo_self] at h₁
      rw [held_moveTo_ne _ eq₂] at h₂
      exact absurd h₂ (free id h₁ w₂)
    · subst eq₂
      rw [held_moveTo_self] at h₂
      rw [held_moveTo_ne _ eq₁] at h₁
      exact absurd h₁ (free id h₂ w₁)
    · rw [held_moveTo_ne _ eq₁] at h₁
      rw [held_moveTo_ne _ eq₂] at h₂
      exact h.single w₁ w₂ id h₁ h₂

/-- A process goes on with the same messages in hand. -/
theorem held_moveTo_eq {w : String} {phase : Phase} (same : phase.held = s.held w) (w' : String) :
    (s.moveTo w phase).held w' = s.held w' := by
  by_cases eq : w' = w
  · subst eq
    rw [held_moveTo_self, same]
  · rw [held_moveTo_ne _ eq]

theorem Effect.custody (e : Effect D s now later act t) (h : Custody s)
    (careful : ∀ w, act = .reap w → ∀ m ∈ s.db.messages,
      m.stale (now - staleClaimAfter) = true → ∀ w', m.id ∉ s.held w') : Custody t := by
  cases e with
  | aside same =>
      refine h.keep (fun _ => rfl) fun _ id _ m found sending => ⟨m, ?_, sending⟩
      dsimp only
      rw [same.messages, found]
  | accepted stored =>
      refine h.keep (fun _ => rfl) fun _ id _ m found sending => ⟨m, ?_, sending⟩
      dsimp only
      rw [stored.stored.messages, if_neg, found]
      rintro rfl
      rw [stored.stored.fresh] at found
      cases found
  | @process _ w p quiet _ _ =>
      refine h.shrink (fun w' => ?_) fun _ id _ m found sending => ⟨m, found, sending⟩
      by_cases eq : w' = w
      · subst eq
        rw [held_setProcess_self]
        rcases quiet with same | down | idle
        · rw [same]
          exact .refl _
        · rw [down]
          exact List.nil_sublist _
        · rw [idle]
          exact List.nil_sublist _
      · rw [held_setProcess_ne p eq]
  | claimed _ perm => exact h.claim _ perm
  | released turn =>
      refine h.giveUp (held_of_phase turn) (.refl _) (held_moveTo_self _)
        (fun _ ne => held_moveTo_ne _ ne) fun id' ne => ?_
      rw [moveTo_db, find?_releaseClaim]
      cases found : s.db.messages.find? id' with
      | none => rfl
      | some m =>
          have other : m.id ≠ _ := (Table.key_of_find? found).symm ▸ ne
          simp [other]
  | opened turn opens =>
      cases opens with
      | gone =>
          exact h.giveUp (held_of_phase turn) (.refl _) (held_moveTo_self _)
            (fun _ ne => held_moveTo_ne _ ne) fun _ _ => rfl
      | held _ rewrites | undeliverable _ _ _ rewrites =>
          exact h.giveUp (held_of_phase turn) (.refl _) (held_moveTo_self _)
            (fun _ ne => held_moveTo_ne _ ne) fun _ ne => rewrites.other ne
      | stamped row _ _ rewrites =>
          obtain rfl := Table.key_of_find? (deliveryRow_eq_some.mp row).1
          refine h.keep (held_moveTo_eq (held_of_phase turn).symm) fun _ id _ m found sending => ?_
          rw [moveTo_db, rewrites.messages]
          split
          · exact ⟨m.stamp later, by rw [found]; rfl, sending⟩
          · exact ⟨m, found, sending⟩
  | sent turn =>
      exact h.keep (held_moveTo_eq (held_of_phase turn).symm)
        fun _ id _ m found sending => ⟨m, found, sending⟩
  | recorded turn fewer kept =>
      refine h.giveUp (held_of_phase turn) fewer (held_moveTo_self _)
        (fun _ ne => held_moveTo_ne _ ne) fun id' ne => ?_
      rcases kept with ⟨_, _, rewrites⟩ | same
      · exact rewrites.other ne
      · rw [moveTo_db, same.messages]
  | reaped idle =>
      refine h.keep (fun _ => rfl) fun w' id hid m found sending => ⟨m, ?_, sending⟩
      have fresh : ¬ m.stale (now - staleClaimAfter) = true := by
        intro stale
        have mem := Table.mem_of_find? found
        exact careful _ rfl m mem stale w' (Table.key_of_find? found ▸ hid)
      rw [find?_reapStaleClaims, found, Option.map_some, if_neg fresh]
  | purged idle =>
      refine h.keep (fun _ => rfl) fun _ id _ m found sending => ?_
      rw [find?_purgeExpiredBodies, found, Option.map_some]
      refine ⟨_, rfl, ?_⟩
      split
      · exact sending
      · exact sending
  | domainChanged | mailboxChanged =>
      exact h.keep (fun _ => rfl) fun _ id _ m found sending => ⟨m, found, sending⟩

end Preserved

variable {D : Deployment} {s t : Fleet}

theorem step_custody {l : Label} (h : step D s l = some t) (careful : ReapsAbandoned s l)
    (custody : Custody s) : Custody t := by
  obtain ⟨u, e, rfl⟩ := effect_of_step D h
  obtain ⟨sending, nodup, single⟩ := e.custody custody careful
  exact ⟨sending, nodup, single⟩

/-- In custody, nothing but the purge touches a row that has reached its end. -/
theorem RowChange.of_terminal {now later : Time} {act : Action} {m m' : Message}
    (custody : Custody s) (found : s.db.messages.find? m.id = some m)
    (terminal : m.status.Terminal) (c : RowChange D s now later act m m') : m' = m.purge now := by
  have free : ∀ w, m.id ∉ s.held w := by
    intro w holds
    obtain ⟨m', found', sending⟩ := custody.sending w m.id holds
    obtain rfl := Option.some.inj (found.symm.trans found')
    exact terminal.ne_sending sending
  cases c with
  | claimed _ _ due =>
      simp only [Message.due, Bool.and_eq_true, decide_eq_true_eq] at due
      exact absurd terminal due.1.not_terminal
  | released turn | held turn | undeliverable turn | stamped turn =>
      exact absurd (mem_held turn (List.mem_cons_self ..)) (free _)
  | recorded turn mine => exact absurd (mem_held turn (mine ▸ List.mem_cons_self ..)) (free _)
  | reaped _ stale =>
      simp only [Message.stale, Bool.and_eq_true, decide_eq_true_eq] at stale
      exact absurd stale.1 terminal.ne_sending
  | purged => rfl

/-- What a message that has reached its end still does: nothing. -/
theorem step_terminal {l : Label} (h : step D s l = some t) (custody : Custody s) {id : Nat}
    {m : Message} (found : s.db.messages.find? id = some m) (terminal : m.status.Terminal) :
    (∃ m', t.db.messages.find? id = some m' ∧ m'.status = m.status) ∧ t.calls id = s.calls id := by
  obtain ⟨u, e, rfl⟩ := effect_of_step D h
  obtain rfl := Table.key_of_find? found
  constructor
  · cases e.row m.id with
    | same eq => exact ⟨m, eq.trans found, rfl⟩
    | changed before after change =>
        obtain rfl := Option.some.inj (found.symm.trans before)
        exact ⟨_, after, by rw [change.of_terminal custody found terminal]; rfl⟩
    | new _ before _ _ => rw [before] at found; cases found
  · rcases e.wire with same | ⟨w, a, store, rest, turn, _, sent⟩
    · simp only [calls, same]
    · have other : a.messageId ≠ m.id := by
        intro eq
        obtain ⟨m', found', sending⟩ := custody.sending w a.messageId
          (mem_held turn (List.mem_cons_self ..))
        rw [eq, found] at found'
        cases found'
        exact terminal.ne_sending sending
      simp [calls, sent, other]

/-- While every reaping takes back abandoned messages only, a message that was
accepted or rejected keeps its status and is not sent again, whatever the
workers, their order and the clock do. -/
theorem terminal_is_final {u : Fleet} {id : Nat} {m : Message} (start : s.Initial)
    (before : Reaches (step D) ReapsAbandoned s t)
    (found : t.db.messages.find? id = some m)
    (ended : m.status = .acceptedByProvider ∨ m.status = .permanentlyRejected)
    (after : Reaches (step D) ReapsAbandoned t u) :
    (∃ m', u.db.messages.find? id = some m' ∧ m'.status = m.status) ∧
      u.calls id = t.calls id := by
  have terminal : m.status.Terminal := ended.imp_right .inl
  have custody : Custody t := before.invariant start.custody fun _ _ _ careful h =>
    step_custody h careful
  refine (after.invariant (I := fun u => Custody u ∧
    (∃ m', u.db.messages.find? id = some m' ∧ m'.status = m.status) ∧ u.calls id = t.calls id)
    ⟨custody, ⟨m, found, rfl⟩, rfl⟩ ?_).2
  rintro u l v careful h ⟨custody, ⟨m', found', same⟩, calls⟩
  obtain ⟨⟨m'', found'', same'⟩, calls'⟩ := step_terminal h custody found' (same ▸ terminal)
  exact ⟨step_custody h careful custody, ⟨m'', found'', same'.trans same⟩, calls'.trans calls⟩

end Emaild.Fleet

namespace Emaild
open Relational Transition Fleet

/-! Worker A takes sixteen minutes over the first of two claimed letters. -/
namespace Sample

/-- Meanwhile worker B has reaped the batch and sent the second letter. -/
def overtaken : Fleet := final (step deployment) (fleet mailbox) [
  accept mailbox 1 "ann@example.net" [], accept mailbox 2 "bob@example.net" [],
  now (.start "A"), now (.start "B"), claimBy "A" [1, 2], now (.deliver "A" false),
  now (.send "A"), after 960 (.reap "B"), claimBy "B" [2, 1], now (.deliver "B" false),
  now (.send "B"), recordBy "B" (accepted ["bob@example.net"])]

/-- Worker A goes on with its batch. -/
def duplicated : Fleet := final (step deployment) overtaken [
  recordBy "A" (accepted ["ann@example.net"]), now (.deliver "A" false), now (.send "A"),
  recordBy "A" (smtpSend ["bob@example.net"] (.responseException 451 "try again later"))]

/-- One letter, accepted; later worker B finds nothing to do and purges its body. -/
def delivered : Fleet := final (step deployment) (fleet mailbox) [
  accept mailbox 1 "ann@example.net" [], now (.start "A"), claimBy "A" [1],
  now (.deliver "A" false), now (.send "A"), recordBy "A" (accepted ["ann@example.net"])]

def quiet : Fleet := final (step deployment) delivered [
  now (.start "B"), claimBy "B" [], after 300000 (.purge "B"), claimBy "A" []]

end Sample

/-- A letter that the provider has accepted is sent a second time and deferred. -/
theorem accepted_letter_sent_again :
    (Reaches (step Sample.deployment) Any (Sample.fleet Sample.mailbox) Sample.overtaken ∧
      Sample.look 2 Sample.overtaken = (some .acceptedByProvider, 1)) ∧
    Reaches (step Sample.deployment) Any Sample.overtaken Sample.duplicated ∧
      Sample.look 2 Sample.duplicated = (some .temporarilyFailed, 2) :=
  ⟨reaches_final (Sample.look 2) (by decide +kernel) fun _ _ _ => trivial,
    reaches_final (Sample.look 2) (by decide +kernel) fun _ _ _ => trivial⟩

theorem delivered_is_final :
    ∃ m, Sample.delivered.db.messages.find? 1 = some m ∧ m.status = .acceptedByProvider ∧
      (∃ m', Sample.quiet.db.messages.find? 1 = some m' ∧ m'.status = m.status) ∧
      Sample.quiet.calls 1 = Sample.delivered.calls 1 := by
  have before : Reaches (step Sample.deployment) ReapsAbandoned (Sample.fleet Sample.mailbox)
      Sample.delivered ∧ Sample.look 1 Sample.delivered = (some .acceptedByProvider, 1) :=
    reaches_final (Sample.look 1) (by decide +kernel)
      (by simp [ReapsAbandoned, Sample.now, Sample.accept, Sample.claimBy, Sample.recordBy])
  have after : Reaches (step Sample.deployment) ReapsAbandoned Sample.delivered Sample.quiet ∧
      Sample.look 1 Sample.quiet = (some .acceptedByProvider, 1) :=
    reaches_final (Sample.look 1) (by decide +kernel)
      (by simp [ReapsAbandoned, Sample.now, Sample.after, Sample.claimBy])
  have status : (Sample.delivered.db.messages.find? 1).map Message.status =
      some .acceptedByProvider := congrArg Prod.fst before.2
  obtain ⟨m, found, ended⟩ := Option.map_eq_some_iff.mp status
  exact ⟨m, found, ended,
    Fleet.terminal_is_final (Sample.fleet_initial _) before.1 found (.inl ended) after.1⟩

end Emaild
