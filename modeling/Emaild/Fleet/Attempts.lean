import Emaild.Fleet.Lifecycle

/-!
How often a message is attempted. The cap is checked when an answer is recorded;
an attempt that dies before that comes back through the reaper, which does not
look at the count. As long as the reaper finds no message whose attempts are
spent, the cap holds in every run of one worker at a time.
-/
namespace Emaild

/-- The part of the batch that a worker has not opened yet. -/
def Phase.waiting : Phase → List Nat
  | .down => []
  | .serving ids | .stamped _ _ ids | .awaiting _ ids => ids

/-- The attempt a worker has under way. -/
def Phase.underWay : Phase → Option Attempt
  | .stamped a _ _ | .awaiting a _ => some a
  | _ => none

theorem Phase.waiting_subset_held {phase : Phase} {id : Nat} (h : id ∈ phase.waiting) :
    id ∈ phase.held := by
  cases phase with
  | down => cases h
  | serving ids => exact h
  | stamped | awaiting => exact List.mem_cons_of_mem _ h

theorem Phase.held_of_underWay {phase : Phase} {a : Attempt} (h : phase.underWay = some a) :
    phase.held = a.messageId :: phase.waiting := by
  cases phase <;> cases h <;> rfl

namespace Fleet
open Relational Transition

/-- The attempts column of a message. -/
def attempts (s : Fleet) (id : Nat) : Nat := ((s.db.messages.find? id).map Message.attempts).getD 0

theorem attempts_of_find? {s : Fleet} {id : Nat} {m : Message}
    (h : s.db.messages.find? id = some m) : s.attempts id = m.attempts := by
  simp [attempts, h]

/-- A reaping takes back no message whose attempts are spent. -/
def ReapsUnspent (s : Fleet) (l : Label) : Prop :=
  ∀ w, l.action = .reap w → ∀ m ∈ s.db.messages,
    m.stale (s.clock + l.wait - staleClaimAfter) = true → m.attempts < maxAttempts

/-- The books on attempts: whoever may still be attempted has one left, an attempt
under way carries the number in the row, and each call has been counted. -/
structure Capped (s : Fleet) : Prop where
  bounded : ∀ id, s.attempts id ≤ maxAttempts
  pending : ∀ id m, s.db.messages.find? id = some m → m.status.Pending → m.attempts < maxAttempts
  waiting : ∀ w, ∀ id ∈ (s.workers w).phase.waiting, s.attempts id < maxAttempts
  numbered : ∀ w a, (s.workers w).phase.underWay = some a → s.attempts a.messageId = a.number
  called : ∀ id, (s.calls id).length ≤ s.attempts id
  stamped : ∀ w a store rest, (s.workers w).phase = .stamped a store rest →
    (s.calls a.messageId).length < s.attempts a.messageId

theorem Initial.capped {s : Fleet} (h : s.Initial) : Capped s where
  bounded id := by simp [attempts, h.messages id]
  pending id m found := by simp [h.messages id] at found
  waiting w id hid := by simp [h.workers w, Phase.waiting] at hid
  numbered w a hw := by simp [h.workers w, Phase.underWay] at hw
  called id := by simp [calls, h.wire]
  stamped w a store rest hw := by simp [h.workers w] at hw

variable {D : Deployment} {s t : Fleet} {l : Label} {now later : Time} {act : Action}

/-- Only the stamp of a delivery counts an attempt. -/
theorem RowChange.attempts {m m' : Message} (c : RowChange D s now later act m m') :
    m'.attempts = m.attempts ∨ (m' = m.stamp later ∧ ∃ w fails, act = .deliver w fails) := by
  cases c with
  | stamped => exact .inr ⟨rfl, _, _, rfl⟩
  | recorded => exact .inl (Recording.row_spec _ m).2.attempts
  | _ => exact .inl rfl

/-- A row that is pending after a change has an attempt left. -/
theorem RowChange.unspent {m m' : Message} (c : RowChange D s now later act m m')
    (custody : Custody s) (found : s.db.messages.find? m.id = some m) (h : Capped s)
    (reaps : ∀ w, act = .reap w → m.stale (now - staleClaimAfter) = true →
      m.attempts < maxAttempts) (pending : m'.status.Pending) : m'.attempts < maxAttempts := by
  have column := attempts_of_find? found
  have left : ∀ {w rest}, (s.workers w).phase = .serving (m.id :: rest) →
      m.attempts < maxAttempts := fun {w _} turn => by
    rw [← column]
    exact h.waiting w m.id (turn ▸ List.mem_cons_self ..)
  cases c with
  | claimed => exact absurd rfl pending.ne_sending
  | released turn | held turn => exact left turn
  | undeliverable => exact absurd (.inr (.inl rfl)) pending.not_terminal
  | stamped turn =>
      have sending := custody.sending_of_turn turn (List.mem_cons_self ..) found
      exact absurd sending pending.ne_sending
  | recorded turn mine =>
      obtain ⟨settles, leaves⟩ := Recording.row_spec ⟨_, _, _, _, now, later⟩ m
      cases settles with
      | accepted _ status => exact absurd (.inl status) pending.not_terminal
      | rejected _ _ status => exact absurd (.inr (.inl status)) pending.not_terminal
      | deferred _ defers =>
          have number := h.numbered _ _ (congrArg Phase.underWay turn)
          rw [leaves.attempts, ← column, mine, number]
          exact defers.2
  | reaped _ stale => exact reaps _ rfl stale
  | purged => exact h.pending m.id m found pending

/-- Outside of a delivery the column stays as it is. -/
theorem Effect.attempts (e : Effect D s now later act t) (quiet : ∀ w fails, act ≠ .deliver w fails)
    (id : Nat) : t.attempts id = s.attempts id := by
  cases e.row id with
  | same eq => rw [Fleet.attempts, eq, Fleet.attempts]
  | changed before after change =>
      rw [attempts_of_find? before, attempts_of_find? after]
      rcases change.attempts with same | ⟨_, w, fails, deliver⟩
      · exact same
      · exact absurd deliver (quiet w fails)
  | new _ before after stored =>
      rw [attempts_of_find? after, stored.fresh.2.1, Fleet.attempts, before]
      rfl

theorem attempts_rewrites {id : Nat} {f : Message → Message} (h : Rewrites id f s.db t.db)
    (same : ∀ m, (f m).attempts = m.attempts) (id' : Nat) : t.attempts id' = s.attempts id' := by
  rw [Fleet.attempts, h.messages, Fleet.attempts]
  split
  · cases s.db.messages.find? id' <;> simp [same]
  · rfl

/-- A step that stamps nothing and sends nothing, after which each worker goes on
with what it had under way or with part of its batch. -/
theorem Capped.frame (h : Capped s) (attempts : ∀ id, t.attempts id = s.attempts id)
    (wire : t.wire = s.wire)
    (phases : ∀ w, (t.workers w).phase = (s.workers w).phase ∨ (t.workers w).phase = .down ∨
      ∃ ids, (t.workers w).phase = .serving ids ∧ ids ⊆ (s.workers w).phase.waiting)
    (pending : ∀ id m, t.db.messages.find? id = some m → m.status.Pending →
      m.attempts < maxAttempts) : Capped t where
  bounded id := attempts id ▸ h.bounded id
  pending := pending
  waiting w id hid := by
    rw [attempts]
    rcases phases w with same | down | ⟨ids, serving, part⟩
    · exact h.waiting w id (same ▸ hid)
    · simp [down, Phase.waiting] at hid
    · rw [serving] at hid
      exact h.waiting w id (part hid)
  numbered w a hw := by
    rw [attempts]
    rcases phases w with same | down | ⟨ids, serving, _⟩
    · exact h.numbered w a (same ▸ hw)
    · simp [down, Phase.underWay] at hw
    · simp [serving, Phase.underWay] at hw
  called id := by
    rw [attempts, calls, wire]
    exact h.called id
  stamped w a store rest hw := by
    rw [attempts, calls, wire]
    rcases phases w with same | down | ⟨ids, serving, _⟩
    · exact h.stamped w a store rest (same ▸ hw)
    · simp [down] at hw
    · simp [serving] at hw

/-- A worker that moves on to part of its batch. -/
theorem phases_moveTo (u : Fleet) (w : String) {ids : List Nat} (same : u.workers = s.workers)
    (part : ids ⊆ (s.workers w).phase.waiting) (w' : String) :
    ((u.moveTo w (.serving ids)).workers w').phase = (s.workers w').phase ∨
    ((u.moveTo w (.serving ids)).workers w').phase = .down ∨
    ∃ ids', ((u.moveTo w (.serving ids)).workers w').phase = .serving ids' ∧
      ids' ⊆ (s.workers w').phase.waiting := by
  by_cases eq : w' = w
  · subst eq
    exact .inr (.inr ⟨ids, moveTo_phase_self .., part⟩)
  · rw [moveTo_phase_ne _ _ _ eq, same]
    exact .inl rfl

section Moves
variable {u : Fleet} {w : String}

/-- A claim takes pending messages, which have an attempt left. -/
theorem Capped.claim (h : Capped s) {order : List Nat} (workers : u.workers = s.workers)
    (wire : u.wire = s.wire) (column : ∀ id, u.attempts id = s.attempts id)
    (pending : ∀ id m, u.db.messages.find? id = some m → m.status.Pending →
      m.attempts < maxAttempts)
    (taken : ∀ id ∈ order, ∃ m, s.db.messages.find? id = some m ∧ m.status.Pending) :
    Capped (u.moveTo w (.serving order)) := by
  have calls : ∀ id, (u.moveTo w (.serving order)).calls id = s.calls id := fun id => by
    simp only [calls, moveTo_wire, wire]
  refine ⟨fun id => ?_, pending, fun w' id hid => ?_, fun w' a hw => ?_, fun id => ?_,
    fun w' a store rest hw => ?_⟩
  · exact (column id).symm ▸ h.bounded id
  · refine (column id).symm ▸ ?_
    by_cases eq : w' = w
    · subst eq
      rw [moveTo_phase_self] at hid
      obtain ⟨m, found, due⟩ := taken id hid
      rw [attempts_of_find? found]
      exact h.pending id m found due
    · rw [moveTo_phase_ne _ _ _ eq, workers] at hid
      exact h.waiting w' id hid
  · refine (column _).trans ?_
    by_cases eq : w' = w
    · subst eq
      simp [Phase.underWay] at hw
    · rw [moveTo_phase_ne _ _ _ eq, workers] at hw
      exact h.numbered w' a hw
  · rw [calls]
    exact (column id).symm ▸ h.called id
  · rw [calls]
    refine (column _).symm ▸ ?_
    by_cases eq : w' = w
    · subst eq
      simp at hw
    · rw [moveTo_phase_ne _ _ _ eq, workers] at hw
      exact h.stamped w' a store rest hw

/-- The stamp spends an attempt of the message that is opened, and of no other. -/
theorem Capped.stamp (h : Capped s) (custody : Custody s) {m : Message} {a : Attempt}
    {store : Database} {rest : List Nat} (workers : u.workers = s.workers)
    (wire : u.wire = s.wire) (turn : (s.workers w).phase = .serving (m.id :: rest))
    (found : s.db.messages.find? m.id = some m) (mine : a.messageId = m.id)
    (number : a.number = m.attempts + 1) (counted : u.attempts m.id = m.attempts + 1)
    (others : ∀ id, id ≠ m.id → u.attempts id = s.attempts id)
    (pending : ∀ id m, u.db.messages.find? id = some m → m.status.Pending →
      m.attempts < maxAttempts) : Capped (u.moveTo w (.stamped a store rest)) := by
  have holds : s.held w = m.id :: rest := held_of_phase turn
  have left : m.attempts < maxAttempts := by
    rw [← attempts_of_find? found]
    exact h.waiting w m.id (turn ▸ List.mem_cons_self ..)
  have apart : ∀ w', w' ≠ w → ∀ id ∈ s.held w', id ≠ m.id := fun w' ne id hid eq =>
    ne (custody.single w' w id hid (by simp [holds, eq]))
  have calls : ∀ id, (u.moveTo w (.stamped a store rest)).calls id = s.calls id := fun id => by
    simp only [calls, moveTo_wire, wire]
  have more : ∀ id, s.attempts id ≤ u.attempts id := by
    intro id
    by_cases eq : id = m.id
    · rw [eq, counted, attempts_of_find? found]
      exact Nat.le_succ _
    · exact (others id eq).ge
  refine ⟨fun id => ?_, pending, fun w' id hid => ?_, fun w' a' hw => ?_, fun id => ?_,
    fun w' a' store' rest' hw => ?_⟩
  · by_cases eq : id = m.id
    · exact eq ▸ counted.le.trans left
    · exact (others id eq).le.trans (h.bounded id)
  · by_cases eq : w' = w
    · subst eq
      rw [moveTo_phase_self] at hid
      have distinct := (List.nodup_cons.mp (holds ▸ custody.nodup w')).1
      refine (others id fun same => distinct (same ▸ hid)).trans_lt ?_
      exact h.waiting w' id (turn ▸ List.mem_cons_of_mem _ hid)
    · rw [moveTo_phase_ne _ _ _ eq, workers] at hid
      refine (others id (apart w' eq id (Phase.waiting_subset_held hid))).trans_lt ?_
      exact h.waiting w' id hid
  · by_cases eq : w' = w
    · subst eq
      rw [moveTo_phase_self] at hw
      cases hw
      rw [number, mine]
      exact counted
    · rw [moveTo_phase_ne _ _ _ eq, workers] at hw
      have ne := apart w' eq a'.messageId (by
        rw [held, Phase.held_of_underWay hw]
        exact List.mem_cons_self ..)
      exact (others _ ne).trans (h.numbered w' a' hw)
  · rw [calls]
    exact (h.called id).trans (more id)
  · rw [calls]
    by_cases eq : w' = w
    · subst eq
      rw [moveTo_phase_self] at hw
      cases hw
      have before := h.called a.messageId
      rw [mine, attempts_of_find? found] at before
      rw [mine]
      exact (Nat.lt_succ_of_le before).trans_eq counted.symm
    · rw [moveTo_phase_ne _ _ _ eq, workers] at hw
      exact (h.stamped w' a' store' rest' hw).trans_le (more _)

/-- A call of the adapter has been counted when its attempt was stamped. -/
theorem Capped.send (h : Capped s) (custody : Custody s) {a : Attempt} {store : Database}
    {rest : List Nat} (turn : (s.workers w).phase = .stamped a store rest) :
    Capped ({ s with wire := s.wire ++ [Call.mk a store now] }.moveTo w (.awaiting a rest)) := by
  have calls : ∀ id, (({ s with wire := s.wire ++ [Call.mk a store now] } : Fleet).moveTo w
      (.awaiting a rest)).calls id =
        s.calls id ++ if a.messageId = id then [⟨a, store, now⟩] else [] := by
    intro id
    by_cases eq : a.messageId = id <;> simp [Fleet.calls, eq, List.filter_append]
  refine ⟨h.bounded, h.pending, fun w' id hid => ?_, fun w' a' hw => ?_, fun id => ?_,
    fun w' a' store' rest' hw => ?_⟩
  · by_cases eq : w' = w
    · subst eq
      rw [moveTo_phase_self] at hid
      exact h.waiting w' id (turn ▸ hid)
    · rw [moveTo_phase_ne _ _ _ eq] at hid
      exact h.waiting w' id hid
  · by_cases eq : w' = w
    · subst eq
      rw [moveTo_phase_self] at hw
      cases hw
      exact h.numbered w' a (by rw [turn]; rfl)
    · rw [moveTo_phase_ne _ _ _ eq] at hw
      exact h.numbered w' a' hw
  · rw [calls]
    split
    · subst_vars
      rw [List.length_append]
      exact h.stamped w a store rest turn
    · rw [List.append_nil]
      exact h.called id
  · by_cases eq : w' = w
    · subst eq
      simp at hw
    · rw [moveTo_phase_ne _ _ _ eq] at hw
      have ne : a.messageId ≠ a'.messageId := fun same =>
        eq (custody.single w' w a'.messageId (mem_held hw (List.mem_cons_self ..))
          (mem_held turn (same ▸ List.mem_cons_self ..)))
      rw [calls, if_neg ne, List.append_nil]
      exact h.stamped w' a' store' rest' hw

end Moves

/-- Every step that reaps unspent messages only keeps the books. -/
theorem Effect.capped (e : Effect D s now later act t) (custody : Custody s) (h : Capped s)
    (reaps : ∀ w, act = .reap w → ∀ m ∈ s.db.messages,
      m.stale (now - staleClaimAfter) = true → m.attempts < maxAttempts) : Capped t := by
  have pending : ∀ id m, t.db.messages.find? id = some m → m.status.Pending →
      m.attempts < maxAttempts := by
    intro id m found pending
    cases e.row id with
    | same eq => exact h.pending id m (eq ▸ found) pending
    | changed before after change =>
        obtain rfl := Option.some.inj (after.symm.trans found)
        obtain rfl := Table.key_of_find? before
        exact change.unspent custody before h
          (fun w reap => reaps w reap _ (Table.mem_of_find? before)) pending
    | new _ _ after stored =>
        obtain rfl := Option.some.inj (after.symm.trans found)
        rw [stored.fresh.2.1]
        decide
  have column := e.attempts
  cases e with
  | aside same =>
      exact h.frame (fun id => by simp only [Fleet.attempts, same.messages]) rfl
        (fun _ => .inl rfl) pending
  | accepted stored => exact h.frame (column (by simp)) rfl (fun _ => .inl rfl) pending
  | @process _ w p quiet _ _ =>
      refine h.frame (fun _ => rfl) rfl (fun w' => ?_) pending
      by_cases eq : w' = w
      · subst eq
        rw [setProcess_workers_self]
        exact quiet.imp_right (.imp_right fun idle => ⟨[], idle, List.nil_subset _⟩)
      · rw [setProcess_workers_ne _ _ _ eq]
        exact .inl rfl
  | claimed idle perm =>
      refine h.claim rfl rfl (column (by simp)) pending fun id taken => ?_
      obtain ⟨m, mem, rfl, due⟩ := due_of_mem_dueMessages (perm.mem_iff.mp taken)
      simp only [Message.due, Bool.and_eq_true, decide_eq_true_eq] at due
      exact ⟨m, Table.find?_of_mem mem, due.1⟩
  | released turn =>
      exact h.frame (column (by simp)) rfl
        (phases_moveTo _ _ rfl (by simp [turn, Phase.waiting])) pending
  | @opened w fails id rest opening db turn opens =>
      have onward : ∀ u : Fleet, u.workers = s.workers → ∀ w',
          ((u.moveTo w (.serving rest)).workers w').phase = (s.workers w').phase ∨ _ :=
        fun u same => phases_moveTo u w same (by simp [turn, Phase.waiting])
      cases opens with
      | gone => exact h.frame (fun _ => rfl) rfl (onward _ rfl) pending
      | held _ rewrites =>
          exact h.frame (attempts_rewrites rewrites fun _ => rfl) rfl (onward _ rfl) pending
      | undeliverable _ _ _ rewrites =>
          exact h.frame (attempts_rewrites rewrites fun _ => rfl) rfl (onward _ rfl) pending
      | @stamped m mailbox domain host _ row _ _ rewrites =>
          have found := (deliveryRow_eq_some.mp row).1
          obtain rfl := Table.key_of_find? found
          refine h.stamp custody rfl rfl turn found rfl rfl ?_ (fun id' ne => ?_) pending
          · exact attempts_of_find? (s := { s with db := db }) (rewrites.self found)
          · simp only [Fleet.attempts, rewrites.other ne]
  | sent turn => exact h.send custody turn
  | recorded turn fewer kept =>
      exact h.frame (column (by simp)) rfl
        (phases_moveTo _ _ rfl (by rw [turn]; exact fewer.subset)) pending
  | reaped idle => exact h.frame (column (by simp)) rfl (fun _ => .inl rfl) pending
  | purged idle => exact h.frame (column (by simp)) rfl (fun _ => .inl rfl) pending
  | domainChanged => exact h.frame (column (by simp)) rfl (fun _ => .inl rfl) pending
  | mailboxChanged => exact h.frame (column (by simp)) rfl (fun _ => .inl rfl) pending

theorem step_capped (h : step D s l = some t) (reaps : ReapsUnspent s l) (custody : Custody s)
    (capped : Capped s) : Capped t := by
  obtain ⟨u, e, rfl⟩ := effect_of_step D h
  obtain ⟨bounded, pending, waiting, numbered, called, stamped⟩ := e.capped custody capped reaps
  exact ⟨bounded, pending, waiting, numbered, called, stamped⟩

/-- In every run of one worker at a time, killed at any point and with calls that
raise: if no reaping takes back a message whose attempts are spent, no message is
attempted or sent more often than the cap. -/
theorem attempts_are_capped (start : s.Initial)
    (run : Reaches (step D) (fun s l => OneAtATime s l ∧ ReapsUnspent s l) s t) (id : Nat) :
    (t.calls id).length ≤ maxAttempts ∧
      ∀ m, t.db.messages.find? id = some m → m.attempts ≤ maxAttempts := by
  obtain ⟨_, capped⟩ := run.invariant (I := fun s => Orderly s ∧ Capped s)
    ⟨start.orderly, start.capped⟩ fun u l v ⟨one, reaps⟩ h ⟨orderly, capped⟩ =>
      ⟨step_orderly h one orderly, step_capped h reaps orderly.custody capped⟩
  refine ⟨(capped.called id).trans (capped.bounded id), fun m found => ?_⟩
  rw [← attempts_of_find? found]
  exact capped.bounded id

end Fleet

/-! The adapter raises on every call, and the worker goes on. -/
namespace Sample
open Transition Fleet

/-- One call that raises. -/
def raisingCall : List Label :=
  [claimBy "A" [1], now (.deliver "A" false), now (.send "A"), now (.raised "A")]

def raisedOnce : Fleet := final (step deployment) (solo mailbox)
  (accept mailbox 1 "ann@example.net" [] :: raisingCall)

def raisedNineTimes : Fleet := final (step deployment) raisedOnce
  (List.replicate 8 (after 960 (.reap "A") :: raisingCall)).flatten

def effort (s : Fleet) : Nat × Nat := ((s.calls 1).length, s.attempts 1)

end Sample

/-- A lone worker sends one letter nine times. -/
theorem sent_nine_times :
    Transition.Reaches (Fleet.step Sample.deployment) Fleet.OneAtATime
      (Sample.fleet Sample.mailbox) Sample.raisedNineTimes ∧
    Sample.effort Sample.raisedNineTimes = (9, 9) ∧ maxAttempts = 8 := by
  have once : Transition.Reaches (Fleet.step Sample.deployment) Fleet.OneAtATime
      (Sample.solo Sample.mailbox) Sample.raisedOnce ∧ Sample.effort Sample.raisedOnce = (1, 1) :=
    Transition.reaches_final Sample.effort (by decide +kernel)
      (by simp [Fleet.OneAtATime, Sample.raisingCall, Sample.now, Sample.accept, Sample.claimBy])
  have again : Transition.Reaches (Fleet.step Sample.deployment) Fleet.OneAtATime
      Sample.raisedOnce Sample.raisedNineTimes ∧
      Sample.effort Sample.raisedNineTimes = (9, 9) :=
    Transition.reaches_final Sample.effort (by decide +kernel)
      (by simp [Fleet.OneAtATime, Sample.raisingCall, Sample.now, Sample.after, Sample.claimBy])
  exact ⟨((Sample.started (Sample.start_alone _)).trans once.1).trans again.1, again.2, rfl⟩

theorem raisedOnce_is_capped :
    (Sample.raisedOnce.calls 1).length ≤ maxAttempts ∧
      ∀ m, Sample.raisedOnce.db.messages.find? 1 = some m → m.attempts ≤ maxAttempts := by
  have once : Transition.Reaches (Fleet.step Sample.deployment)
      (fun s l => Fleet.OneAtATime s l ∧ Fleet.ReapsUnspent s l)
      (Sample.solo Sample.mailbox) Sample.raisedOnce ∧ Sample.effort Sample.raisedOnce = (1, 1) :=
    Transition.reaches_final Sample.effort (by decide +kernel)
      (by simp [Fleet.OneAtATime, Fleet.ReapsUnspent, Sample.raisingCall, Sample.now, Sample.accept,
        Sample.claimBy])
  have start : Fleet.ReapsUnspent (Sample.fleet Sample.mailbox) (Sample.now (.start "A")) :=
    by simp [Fleet.ReapsUnspent, Sample.now]
  exact Fleet.attempts_are_capped (Sample.fleet_initial _)
    ((Sample.started ⟨Sample.start_alone _, start⟩).trans once.1) 1

end Emaild
