import Emaild.Fleet.Custody

/-!
One worker at a time. However it is killed and restarted, every row stays
consistent over its five columns, so a message that has not reached its end can
always be claimed or reaped, and still has its body.
-/
namespace Emaild

/-- The columns of the queue agree with the status. -/
structure Message.Consistent (m : Message) : Prop where
  pending : m.status.Pending → m.nextAttemptAt.isSome = true ∧ m.claimedBy = none ∧
    m.claimedAt = none ∧ m.completedAt = none
  sending : m.status = .sending → m.claimedBy.isSome = true ∧ m.claimedAt.isSome = true ∧
    m.completedAt = none
  ended : m.status = .acceptedByProvider ∨ m.status = .permanentlyRejected →
    m.completedAt.isSome = true ∧ m.claimedBy = none ∧ m.claimedAt = none
  purged : m.bodyPurgedAt.isSome = true → m.status.Terminal

/-- With it: a time for the next attempt is always set, and nothing is canceled. -/
structure Message.Sound (m : Message) : Prop extends Message.Consistent m where
  scheduled : m.nextAttemptAt.isSome = true
  kept : m.status ≠ .canceled

namespace Message.Sound
variable {m : Message}

/-- Before its end a message is neither completed nor purged. -/
theorem unfinished (h : m.Sound) (going : ¬ m.status.Terminal) :
    m.completedAt = none ∧ m.bodyPurgedAt = none := by
  constructor
  · rcases m.status.cases_of with pending | sending | terminal
    · exact (h.pending pending).2.2.2
    · exact (h.sending sending).2.2
    · exact absurd terminal going
  · cases purged : m.bodyPurgedAt with
    | none => rfl
    | some _ => exact absurd (h.purged (by simp [purged])) going

/-- Only a message that was completed is old enough for the purge. -/
theorem ended_of_expired (h : m.Sound) {cutoff : Time} (expired : m.expired cutoff = true) :
    m.status = .acceptedByProvider ∨ m.status = .permanentlyRejected := by
  by_cases terminal : m.status.Terminal
  · rcases terminal with accepted | rejected | canceled
    · exact .inl accepted
    · exact .inr rejected
    · exact absurd canceled h.kept
  · simp [Message.expired, (h.unfinished terminal).1] at expired

theorem of_pending (status : m.status.Pending) (scheduled : m.nextAttemptAt.isSome = true)
    (unclaimed : m.claimedBy = none ∧ m.claimedAt = none)
    (going : m.completedAt = none ∧ m.bodyPurgedAt = none) : m.Sound where
  pending _ := ⟨scheduled, unclaimed.1, unclaimed.2, going.1⟩
  sending h := absurd h status.ne_sending
  ended h := absurd (h.imp_right .inl) status.not_terminal
  purged h := by simp [going.2] at h
  scheduled := scheduled
  kept h := absurd (.inr (.inr h)) status.not_terminal

theorem of_sending (status : m.status = .sending) (scheduled : m.nextAttemptAt.isSome = true)
    (claimed : m.claimedBy.isSome = true ∧ m.claimedAt.isSome = true)
    (going : m.completedAt = none ∧ m.bodyPurgedAt = none) : m.Sound where
  pending h := absurd status h.ne_sending
  sending _ := ⟨claimed.1, claimed.2, going.1⟩
  ended h := by simp [status] at h
  purged h := by simp [going.2] at h
  scheduled := scheduled
  kept h := by simp [status] at h

theorem of_ended (status : m.status = .acceptedByProvider ∨ m.status = .permanentlyRejected)
    (scheduled : m.nextAttemptAt.isSome = true) (completed : m.completedAt.isSome = true)
    (unclaimed : m.claimedBy = none ∧ m.claimedAt = none) : m.Sound where
  pending h := absurd (status.imp_right .inl) h.not_terminal
  sending h := absurd h (MessageStatus.Terminal.ne_sending (status.imp_right .inl))
  ended _ := ⟨completed, unclaimed⟩
  purged _ := status.imp_right .inl
  scheduled := scheduled
  kept h := by simp [h] at status

end Message.Sound

/-- A message starts sound. -/
theorem Accepted.sound {rt : Runtime} {principal : Principal} {request : SendEmailRequest}
    {draw : IngestDraw} {now : Time} {db db' : Database}
    {m : Message}
    (h : Accepted rt principal request draw now db db' m) : m.Sound := by
  obtain ⟨status, _, _, scheduled, claimedBy, claimedAt, completed, purged⟩ := h.fresh
  exact .of_pending (.inl status) (by simp [scheduled]) ⟨claimedBy, claimedAt⟩
    ⟨completed, purged⟩

namespace Fleet
open Relational Transition

/-- A worker is started only when none is alive. -/
def OneAtATime (s : Fleet) (l : Label) : Prop :=
  ∀ w, l.action = .start w → ∀ w', (s.workers w').phase = .down

/-- At most one worker is alive. -/
def Alone (s : Fleet) : Prop :=
  ∀ w w', (s.workers w).phase ≠ .down → (s.workers w').phase ≠ .down → w = w'

variable {D : Deployment} {s t : Fleet} {l : Label} {now later : Time} {act : Action}

/-- Only a start brings a worker to life. -/
theorem Effect.alive (e : Effect D s now later act t) {w : String}
    (alive : (t.workers w).phase ≠ .down) :
    (s.workers w).phase ≠ .down ∨ act = .start w := by
  have moved : ∀ (u : Fleet) (w' : String) (phase : Phase), u.workers = s.workers →
      (s.workers w').phase ≠ .down → ((u.moveTo w' phase).workers w).phase ≠ .down →
      (s.workers w).phase ≠ .down := by
    intro u w' phase same before after
    by_cases eq : w = w'
    · exact eq ▸ before
    · rwa [moveTo_phase_ne _ _ _ eq, same] at after
  cases e with
  | @process _ w' p _ woken _ =>
      by_cases eq : w = w'
      · subst eq
        rw [setProcess_workers_self] at alive
        by_cases down : (s.workers w).phase = .down
        · exact .inr (woken down alive)
        · exact .inl down
      · rw [setProcess_workers_ne _ _ _ eq] at alive
        exact .inl alive
  | claimed turn | released turn | opened turn | sent turn | recorded turn =>
      exact .inl (moved _ _ _ rfl (by simp [turn]) alive)
  | _ => exact .inl alive

theorem step_alone (h : step D s l = some t) (one : OneAtATime s l) (alone : Alone s) :
    Alone t := by
  obtain ⟨u, e, rfl⟩ := effect_of_step D h
  intro w w' alive alive'
  rcases e.alive alive with before | start
  · rcases e.alive alive' with before' | start'
    · exact alone w w' before before'
    · exact absurd (one w' start' w) before
  · rcases e.alive alive' with before' | start'
    · exact absurd (one w start w') before'
    · exact Action.start.inj (start.symm.trans start')

/-- A lone worker reaps between two batches, when it holds nothing. -/
theorem Alone.reapsAbandoned (alone : Alone s) (h : step D s l = some t) :
    ReapsAbandoned s l := by
  intro w reap m _ _ w'
  obtain ⟨u, advanced, _⟩ := Option.map_eq_some_iff.mp h
  rw [reap] at advanced
  have idle : (s.workers w).phase = .serving [] := by
    cases acts_of_advance D advanced with
    | reap idle => exact idle
  by_cases down : (s.workers w').phase = .down
  · simp [held_of_phase down, Phase.held]
  · obtain rfl := alone w' w down (by simp [idle])
    simp [held_of_phase idle, Phase.held]

/-- What holds in every run of one worker at a time. -/
structure Orderly (s : Fleet) : Prop where
  alone : Alone s
  custody : Custody s
  rows : ∀ id m, s.db.messages.find? id = some m → m.Sound

theorem Initial.orderly (h : s.Initial) : Orderly s where
  alone w _ alive _ := absurd (h.workers w) alive
  custody := h.custody
  rows id _ found := by simp [h.messages id] at found

/-- A worker whose turn it is has the row in flight. -/
theorem Custody.sending_of_turn (custody : Custody s) {w : String} {phase : Phase} {m : Message}
    (turn : (s.workers w).phase = phase) (mem : m.id ∈ phase.held)
    (found : s.db.messages.find? m.id = some m) : m.status = .sending := by
  obtain ⟨m', found', sending⟩ := custody.sending w m.id (mem_held turn mem)
  obtain rfl := Option.some.inj (found.symm.trans found')
  exact sending

theorem sending_not_terminal {m : Message} (h : m.status = .sending) : ¬ m.status.Terminal :=
  fun terminal => terminal.ne_sending h

/-- Every writer keeps a row sound. -/
theorem RowChange.sound {m m' : Message} (c : RowChange D s now later act m m')
    (custody : Custody s) (found : s.db.messages.find? m.id = some m) (h : m.Sound) :
    m'.Sound := by
  cases c with
  | claimed _ _ due =>
      simp only [Message.due, Bool.and_eq_true, decide_eq_true_eq] at due
      exact .of_sending rfl h.scheduled ⟨rfl, rfl⟩ (h.unfinished due.1.not_terminal)
  | released _ sending =>
      exact .of_pending (.inl rfl) h.scheduled ⟨rfl, rfl⟩
        (h.unfinished (sending_not_terminal sending))
  | held turn =>
      have sending := custody.sending_of_turn turn (List.mem_cons_self ..) found
      exact .of_pending (.inl rfl) rfl ⟨rfl, rfl⟩ (h.unfinished (sending_not_terminal sending))
  | undeliverable => exact .of_ended (.inr rfl) h.scheduled rfl ⟨rfl, rfl⟩
  | stamped turn =>
      have sending := custody.sending_of_turn turn (List.mem_cons_self ..) found
      have claimed := h.sending sending
      exact .of_sending sending h.scheduled ⟨claimed.1, claimed.2.1⟩
        (h.unfinished (sending_not_terminal sending))
  | @recorded w result latencyMs jitter race a rest _ turn mine =>
      have sending := custody.sending_of_turn turn (mine ▸ List.mem_cons_self ..) found
      have going := h.unfinished (sending_not_terminal sending)
      obtain ⟨settles, leaves⟩ :=
        (Recording.mk result a.number latencyMs jitter now later).row_spec m
      cases settles with
      | accepted _ status completed schedule =>
          exact .of_ended (.inl status) (schedule ▸ h.scheduled) (by simp [completed])
            leaves.unclaimed
      | rejected _ _ status completed schedule =>
          exact .of_ended (.inr status) (schedule ▸ h.scheduled) (by simp [completed])
            leaves.unclaimed
      | deferred _ _ status again unfinished =>
          exact .of_pending (.inr status) again leaves.unclaimed
            ⟨unfinished.trans going.1, leaves.purged.trans going.2⟩
  | reaped _ stale =>
      simp only [Message.stale, Bool.and_eq_true, decide_eq_true_eq] at stale
      exact .of_pending (.inr rfl) rfl ⟨rfl, rfl⟩ (h.unfinished (sending_not_terminal stale.1))
  | purged _ expired =>
      have ended := h.ended_of_expired expired
      exact .of_ended ended h.scheduled (h.ended ended).1 (h.ended ended).2

/-- No writer but the purge touches a body. -/
theorem RowChange.body {m m' : Message} (c : RowChange D s now later act m m') :
    (m'.bodyHtml = m.bodyHtml ∧ m'.bodyText = m.bodyText) ∨
      (m' = m.purge now ∧ m.expired (now - hours D.bodyRetentionHours) = true) := by
  cases c with
  | recorded => exact .inl ((Recording.row_spec _ m).2.body)
  | purged _ expired => exact .inr ⟨rfl, expired⟩
  | _ => exact .inl ⟨rfl, rfl⟩

theorem step_orderly (h : step D s l = some t) (one : OneAtATime s l) (orderly : Orderly s) :
    Orderly t where
  alone := step_alone h one orderly.alone
  custody := step_custody h (orderly.alone.reapsAbandoned h) orderly.custody
  rows id m found := by
    obtain ⟨u, e, rfl⟩ := effect_of_step D h
    cases e.row id with
    | same eq => exact orderly.rows id m (eq ▸ found)
    | changed before after change =>
        obtain rfl := Option.some.inj (after.symm.trans found)
        obtain rfl := Table.key_of_find? before
        exact change.sound orderly.custody before (orderly.rows _ _ before)
    | new _ _ after stored =>
        obtain rfl := Option.some.inj (after.symm.trans found)
        exact stored.sound

theorem orderly_of_run (start : s.Initial) (run : Reaches (step D) OneAtATime s t) : Orderly t :=
  run.invariant start.orderly fun _ _ _ one h orderly => step_orderly h one orderly

/-- How a message that has not reached its end gets on: the claim query finds it,
or the reaper takes it back. -/
inductive Recoverable (db : Database) (m : Message) : Prop
  | claimable {due : Time} (scheduled : m.nextAttemptAt = some due)
      (claim : ∀ now, due ≤ now →
        m.id ∈ dueMessages db (fun _ => false) db.messages.rows.length now)
  | reapable {since : Time} (claimed : m.claimedAt = some since)
      (reap : ∀ now later, since + staleClaimAfter < now →
        (reapStaleClaims db staleClaimAfter now later).messages.find? m.id = some (m.reap later))

theorem Orderly.recoverable (orderly : Orderly s) {id : Nat} {m : Message}
    (found : s.db.messages.find? id = some m) (going : ¬ m.status.Terminal) :
    Recoverable s.db m := by
  obtain rfl := Table.key_of_find? found
  have sound := orderly.rows m.id m found
  rcases m.status.cases_of with pending | sending | terminal
  · obtain ⟨due, scheduled⟩ := Option.isSome_iff_exists.mp (sound.pending pending).1
    refine .claimable scheduled fun now hnow => mem_dueMessages (Table.mem_of_find? found) ?_
    simp [Message.due, pending, scheduled, hnow]
  · obtain ⟨since, claimed⟩ := Option.isSome_iff_exists.mp (sound.sending sending).2.1
    refine .reapable claimed fun now later hnow => ?_
    have stale : m.stale (now - staleClaimAfter) = true := by
      simp only [Message.stale, sending, claimed, decide_true, Option.any_some, Bool.true_and,
        decide_eq_true_eq]
      exact Int.lt_sub_right_of_add_lt hnow
    rw [find?_reapStaleClaims, found, Option.map_some, if_pos stale]
  · exact absurd terminal going

/-- In every run of one worker at a time, killed and restarted at any point: the
rows are consistent, a message that has not reached its end can be claimed or
reaped, and at every later point it has the same body unless it has reached its
end. -/
theorem no_message_is_lost {id : Nat} {m : Message} (start : s.Initial)
    (run : Reaches (step D) OneAtATime s t) (found : t.db.messages.find? id = some m) :
    m.Consistent ∧ (¬ m.status.Terminal → Recoverable t.db m) ∧
      ∀ u, Reaches (step D) OneAtATime t u → ∃ m', u.db.messages.find? id = some m' ∧
        (¬ m'.status.Terminal → m'.bodyHtml = m.bodyHtml ∧ m'.bodyText = m.bodyText) := by
  have orderly := orderly_of_run start run
  refine ⟨(orderly.rows id m found).toConsistent, orderly.recoverable found, fun u more => ?_⟩
  refine (more.invariant (I := fun u => Orderly u ∧ ∃ m', u.db.messages.find? id = some m' ∧
    (¬ m'.status.Terminal → m'.bodyHtml = m.bodyHtml ∧ m'.bodyText = m.bodyText))
    ⟨orderly, m, found, fun _ => ⟨rfl, rfl⟩⟩ ?_).2
  rintro u l v one h ⟨orderly, m', found', intact⟩
  refine ⟨step_orderly h one orderly, ?_⟩
  by_cases terminal : m'.status.Terminal
  · obtain ⟨⟨m'', found'', same⟩, _⟩ := step_terminal h orderly.custody found' terminal
    exact ⟨m'', found'', fun going => absurd (same ▸ terminal) going⟩
  · obtain ⟨x, e, rfl⟩ := effect_of_step D h
    cases e.row id with
    | same eq => exact ⟨m', eq.trans found', intact⟩
    | changed before after change =>
        obtain rfl := Option.some.inj (found'.symm.trans before)
        refine ⟨_, after, fun _ => ?_⟩
        rcases change.body with same | ⟨_, expired⟩
        · exact ⟨same.1.trans (intact terminal).1, same.2.trans (intact terminal).2⟩
        · have ended := (orderly.rows id m' found').ended_of_expired expired
          exact absurd (ended.imp_right .inl) terminal
    | new _ before _ _ => rw [before] at found'; cases found'

end Fleet

/-! A worker dies between the stamp and the answer. -/
namespace Sample
open Transition Fleet

/-- The installation with one worker in its main loop. -/
def solo (mailbox : Mailbox) : Fleet := (fleet mailbox).setProcess "A" ⟨.serving [], false⟩

theorem start_alone (mailbox : Mailbox) : OneAtATime (fleet mailbox) (now (.start "A")) :=
  fun _ _ _ => rfl

theorem started {mailbox : Mailbox} {allowed : Fleet → Label → Prop}
    (ok : allowed (fleet mailbox) (now (.start "A"))) :
    Reaches (step deployment) allowed (fleet mailbox) (solo mailbox) :=
  .next _ .refl ok rfl

def abandoned : Fleet := final (step deployment) (solo mailbox) [
  accept mailbox 1 "ann@example.net" [], claimBy "A" [1], now (.deliver "A" false),
  now (.kill "A")]

end Sample

/-- What the theorem says of the letter while nobody holds it. -/
theorem abandoned_letter_is_not_lost :
    ∃ m, Sample.abandoned.db.messages.find? 1 = some m ∧ m.status = .sending ∧
      m.Consistent ∧ (¬ m.status.Terminal → Fleet.Recoverable Sample.abandoned.db m) ∧
      ∀ u, Transition.Reaches (Fleet.step Sample.deployment) Fleet.OneAtATime Sample.abandoned u →
        ∃ m', u.db.messages.find? 1 = some m' ∧
          (¬ m'.status.Terminal → m'.bodyHtml = m.bodyHtml ∧ m'.bodyText = m.bodyText) := by
  have rest : Transition.Reaches (Fleet.step Sample.deployment) Fleet.OneAtATime
      (Sample.solo Sample.mailbox) Sample.abandoned ∧
      Sample.look 1 Sample.abandoned = (some .sending, 0) :=
    Transition.reaches_final (Sample.look 1) (by decide +kernel)
      (by simp [Fleet.OneAtATime, Sample.now,
      Sample.accept, Sample.claimBy])
  have status : (Sample.abandoned.db.messages.find? 1).map Message.status = some .sending :=
    congrArg Prod.fst rest.2
  obtain ⟨m, found, sending⟩ := Option.map_eq_some_iff.mp status
  exact ⟨m, found, sending, Fleet.no_message_is_lost (Sample.fleet_initial _)
    ((Sample.started (Sample.start_alone _)).trans rest.1) found⟩

end Emaild
