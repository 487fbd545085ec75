import Emaild.Fleet.Lifecycle

/-!
One round of `_process_batch`, from the claim to the moment its worker is back in
the main loop. The messages are served one after the other; an exception leaves
the loop with whatever is still to be served, and nothing hands that back before
the reaper does.
-/
namespace Emaild
open Relational Transition Fleet

/-- The foreign keys of messages and mailboxes. -/
structure Database.Referential (db : Database) : Prop where
  mailboxes : ∀ m ∈ db.messages.rows, (db.mailboxes.find? m.mailboxId).isSome = true
  domains : ∀ mailbox ∈ db.mailboxes.rows, (db.domains.find? mailbox.domainId).isSome = true

/-- The row is in flight in the name of the worker. -/
def Database.Claims (db : Database) (w : String) (id : Nat) : Prop :=
  ∃ m, db.messages.find? id = some m ∧ m.status = .sending ∧ m.claimedBy = some w

/-- The worker whose step it is. -/
def Action.actor? : Action → Option String
  | .start w | .kill w | .requestShutdown w | .stop w | .raised w | .claim w _ _ | .release w
  | .deliver w _ | .send w | .record w _ _ _ _ | .reap w | .purge w => some w
  | _ => none

def Action.kills (w : String) : Action → Bool
  | .kill w' => w' = w
  | _ => false

namespace Fleet
variable (D : Deployment) (w : String)

/-- The worker is at a message of its batch, and lives on. -/
def AtWork (s : Fleet) (l : Label) : Prop := s.held w ≠ [] ∧ l.action.kills w = false

instance (s : Fleet) (l : Label) : Decidable (AtWork w s l) := inferInstanceAs (Decidable (_ ∧ _))

/-- A step that leaves the message in hand as it is: something raises, or the
recording is given up because another transaction suppresses a dead recipient
first, or because the columns or the stack have no room for what it says. -/
inductive Poisoned (s : Fleet) (l : Label) : Prop
  | raised (action : l.action = .raised w)
  | adapter {id : Nat} {rest : List Nat} {m : Message} {mailbox : Mailbox} {domain : Domain}
      (action : l.action = .deliver w true) (turn : (s.workers w).phase = .serving (id :: rest))
      (found : deliveryRow s.db id = some (m, mailbox, domain))
      (room : (currentBudget s.db mailbox D.margin (s.clock + l.wait)).exhausted = false)
      (host : domain.smtpHost ≠ none)
  | hindered {result : DeliveryResult} {latencyMs : Nat} {jitter : Jitter} {race : Race}
      {a : Attempt} {rest : List Nat} {m : Message}
      (action : l.action = .record w result latencyMs jitter race)
      (turn : (s.workers w).phase = .awaiting a rest)
      (found : s.db.messages.find? a.messageId = some m)
      (hindered : ¬ Unhindered D.rt race s.db m result)

/-- What becomes of a message whose turn it is: its attempt has been made, the gate
holds it, it is handed back because a shutdown was requested, or there is no host
that it could be sent to. -/
inductive Disposes (id : Nat) (s : Fleet) (l : Label) : Prop
  | attempted {result : DeliveryResult} {latencyMs : Nat} {jitter : Jitter} {race : Race}
      {a : Attempt} {rest : List Nat} (action : l.action = .record w result latencyMs jitter race)
      (turn : (s.workers w).phase = .awaiting a rest) (mine : a.messageId = id)
  | held {fails : Bool} {rest : List Nat} {m : Message} {mailbox : Mailbox} {domain : Domain}
      (action : l.action = .deliver w fails) (turn : (s.workers w).phase = .serving (id :: rest))
      (found : deliveryRow s.db id = some (m, mailbox, domain))
      (full : (currentBudget s.db mailbox D.margin (s.clock + l.wait)).exhausted = true)
  | returned {rest : List Nat} (action : l.action = .release w)
      (turn : s.workers w = ⟨.serving (id :: rest), true⟩)
  | hostless {fails : Bool} {rest : List Nat} {m : Message} {mailbox : Mailbox} {domain : Domain}
      (action : l.action = .deliver w fails) (turn : (s.workers w).phase = .serving (id :: rest))
      (found : deliveryRow s.db id = some (m, mailbox, domain)) (noHost : domain.smtpHost = none)

/-- The step is poisoned by the message whose turn it is. -/
def PoisonedBy (id : Nat) (s : Fleet) (l : Label) : Prop :=
  Poisoned D w s l ∧ ∃ rest, s.held w = id :: rest

/-- Every message of the batch but those that poisoned it has been disposed of, and
none is left in flight under the worker's claim. -/
def Settled (ids : List Nat) (s : Fleet) (labels : List Label) (t : Fleet) : Prop :=
  (∀ id ∈ ids, Sometime (step D) (fun s l => Disposes D w id s l ∨ PoisonedBy D w id s l) s
    labels) ∧ ∀ id ∈ ids, ¬ t.db.Claims w id

variable {D w} {s t : Fleet} {now later : Time} {act : Action} {id : Nat}

/-! The rows that a delivery joins. -/

theorem referential_deliveryRow {db : Database} (refs : db.Referential) {m : Message}
    (mem : m ∈ db.messages) : (deliveryRow db m.id).isSome = true := by
  obtain ⟨mailbox, found⟩ := Option.isSome_iff_exists.mp (refs.mailboxes m mem)
  obtain ⟨domain, found'⟩ := Option.isSome_iff_exists.mp
    (refs.domains mailbox (Table.mem_of_find? found))
  have row : deliveryRow db m.id = some (m, mailbox, domain) :=
    deliveryRow_eq_some.mpr ⟨Table.find?_of_mem mem, found, found'⟩
  rw [row]
  rfl

/-- A message, its mailbox and its domain stay where they are. -/
theorem Effect.linked (e : Effect D s now later act t)
    (linked : (deliveryRow s.db id).isSome = true) : (deliveryRow t.db id).isSome = true := by
  obtain ⟨⟨m, mailbox, domain⟩, row⟩ := Option.isSome_iff_exists.mp linked
  obtain ⟨found, mailboxFound, domainFound⟩ := deliveryRow_eq_some.mp row
  obtain ⟨m', found', same⟩ : ∃ m', t.db.messages.find? id = some m' ∧
      m'.mailboxId = m.mailboxId := by
    cases e.row id with
    | same eq => exact ⟨m, eq.trans found, rfl⟩
    | changed before after change =>
        obtain rfl := Option.some.inj (found.symm.trans before)
        exact ⟨_, after, change.letter.mailboxId⟩
    | new _ before =>
        rw [before] at found
        cases found
  obtain ⟨mailbox', mailboxFound', sameDomain⟩ : ∃ mailbox',
      t.db.mailboxes.find? m.mailboxId = some mailbox' ∧ mailbox'.domainId = mailbox.domainId := by
    cases e.mailbox m.mailboxId with
    | same eq => exact ⟨mailbox, eq.trans mailboxFound, rfl⟩
    | changed _ eq =>
        rw [mailboxFound] at eq
        exact ⟨_, eq, rfl⟩
  obtain ⟨domain', domainFound'⟩ : ∃ domain',
      t.db.domains.find? mailbox.domainId = some domain' := by
    cases e.domain mailbox.domainId with
    | same eq => exact ⟨domain, eq.trans domainFound⟩
    | changed _ eq =>
        rw [domainFound] at eq
        exact ⟨_, eq⟩
  have row' : deliveryRow t.db id = some (m', mailbox', domain') :=
    deliveryRow_eq_some.mpr ⟨found', same ▸ mailboxFound', sameDomain ▸ domainFound'⟩
  rw [row']
  rfl

/-! A message that the worker is done with. -/

/-- Nobody but the worker itself can claim a row in its name. -/
theorem Effect.unclaimed (e : Effect D s now later act t) (busy : s.held w ≠ [])
    (h : ¬ s.db.Claims w id) : ¬ t.db.Claims w id := by
  rintro ⟨m', found', sending, mine⟩
  apply h
  cases e.row id with
  | same eq => exact ⟨m', eq.symm.trans found', sending, mine⟩
  | new _ _ after stored =>
      obtain rfl := Option.some.inj (after.symm.trans found')
      have queued := stored.fresh.1
      rw [sending] at queued
      cases queued
  | changed before after change =>
      obtain rfl := Option.some.inj (after.symm.trans found')
      cases change with
      | claimed idle =>
          -- the claimant is idle, so it is another worker
          obtain rfl := Option.some.inj mine
          exact absurd (held_of_phase idle) busy
      | released | held | undeliverable | reaped => cases sending
      | stamped | purged => exact ⟨_, before, sending, mine⟩
      | recorded =>
          exact absurd (mine.symm.trans (Recording.row_spec _ _).2.unclaimed.1)
            (Option.some_ne_none w)

theorem unclaimed_of_rewrites {f : Message → Message} {db db' : Database}
    (rewrites : Rewrites id f db db') (done : ∀ m, (f m).status ≠ .sending) :
    ¬ db'.Claims w id := by
  rintro ⟨m', found', sending, _⟩
  rw [rewrites.messages, if_pos rfl] at found'
  obtain ⟨m, _, rfl⟩ := Option.map_eq_some_iff.mp found'
  exact done m sending

/-- The first transaction of a delivery that is not poisoned goes on to the attempt, or
is done with the message. -/
theorem deliver_disposes {l : Label} {fails : Bool} {rest : List Nat}
    (action : l.action = .deliver w fails) (turn : (s.workers w).phase = .serving (id :: rest))
    (linked : (deliveryRow s.db id).isSome = true) (clean : ¬ Poisoned D w s l) (later : Time) :
    (s.deliver D w id rest fails (s.clock + l.wait) later).held w = id :: rest ∨
      ((s.deliver D w id rest fails (s.clock + l.wait) later).held w = rest ∧
        Disposes D w id s l ∧
        ¬ (s.deliver D w id rest fails (s.clock + l.wait) later).db.Claims w id) := by
  obtain ⟨⟨m, mailbox, domain⟩, row⟩ := Option.isSome_iff_exists.mp linked
  obtain rfl := Table.key_of_find? (deliveryRow_eq_some.mp row).1
  by_cases full : (currentBudget s.db mailbox D.margin (s.clock + l.wait)).exhausted = true
  · obtain ⟨db, opened⟩ : ∃ db, openDelivery D.margin fails s.db m.id (s.clock + l.wait) later =
        .ok (.held, db) := ⟨_, by simp only [openDelivery, row, full, if_true]; rfl⟩
    cases opens_of_openDelivery opened with
    | held found rewrites =>
        rw [Fleet.deliver, opened]
        exact .inr ⟨held_moveTo_self _, .held action turn row full,
          unclaimed_of_rewrites rewrites fun _ => by simp [Message.hold]⟩
  have room : (currentBudget s.db mailbox D.margin (s.clock + l.wait)).exhausted = false := by
    simpa using full
  cases host : domain.smtpHost with
  | none =>
      obtain ⟨db, opened⟩ : ∃ db, openDelivery D.margin fails s.db m.id (s.clock + l.wait) later =
          .ok (.undeliverable, db) :=
        ⟨_, by simp only [openDelivery, row, room, host, Bool.false_eq_true, if_false]; rfl⟩
      cases opens_of_openDelivery opened with
      | undeliverable found _ _ rewrites =>
          rw [Fleet.deliver, opened]
          exact .inr ⟨held_moveTo_self _, .hostless action turn row host,
            unclaimed_of_rewrites rewrites fun _ => by simp [Message.failPermanently]⟩
  | some name =>
      cases fails with
      | true => exact absurd (.adapter action turn row room (by simp [host])) clean
      | false =>
          obtain ⟨db, opened⟩ : ∃ db,
              openDelivery D.margin false s.db m.id (s.clock + l.wait) later =
                .ok (.stamped (m.attempt mailbox name later), db) :=
            ⟨_, by simp only [openDelivery, row, room, host, Bool.false_eq_true, if_false]; rfl⟩
          rw [Fleet.deliver, opened]
          exact .inl (held_moveTo_self _)

/-- So does a recording. -/
theorem record_disposes {l : Label} {result : DeliveryResult} {latencyMs : Nat} {jitter : Jitter}
    {race : Race} {a : Attempt} {rest : List Nat}
    (action : l.action = .record w result latencyMs jitter race)
    (turn : (s.workers w).phase = .awaiting a rest)
    (linked : (deliveryRow s.db a.messageId).isSome = true) (clean : ¬ Poisoned D w s l)
    (now later : Time) :
    (s.record D w a rest race ⟨result, a.number, latencyMs, jitter, now, later⟩).held w = rest ∧
      ¬ (s.record D w a rest race ⟨result, a.number, latencyMs, jitter, now, later⟩).db.Claims w
        a.messageId := by
  obtain ⟨⟨m, mailbox, domain⟩, row⟩ := Option.isSome_iff_exists.mp linked
  have found := (deliveryRow_eq_some.mp row).1
  have free : Unhindered D.rt race s.db m result :=
    by_contra fun hindered => clean (.hindered action turn found hindered)
  obtain ⟨after, run, reports, _⟩ := recordOutcome_unhindered D.rt race
    ⟨result, a.number, latencyMs, jitter, now, later⟩ found free
  have own : m.id = a.messageId := Table.key_of_find? found
  have kept := outcomeKept_of_grown ⟨result, a.number, latencyMs, jitter, now, later⟩
    (own.symm ▸ found) reports.toGrown
  unfold Fleet.record
  rw [run]
  refine ⟨held_moveTo_self _, ?_⟩
  rintro ⟨m', found', _, mine⟩
  obtain rfl := Option.some.inj ((own ▸ kept.row).symm.trans found')
  exact absurd (mine.symm.trans (Recording.row_spec _ _).2.unclaimed.1) (Option.some_ne_none w)

/-- The steps of others leave the worker what it holds. -/
theorem held_of_other (h : advance D s now later act = some t) (other : act.actor? ≠ some w) :
    t.held w = s.held w := by
  have store : ∀ db : Database, ({ s with db := db } : Fleet).held w = s.held w := fun _ => rfl
  cases acts_of_advance D h with
  | ingest | suppress | changeDomain | setMailboxActive | unsuppress | reap | purge => exact store _
  | invalid => rfl
  | kill | requestShutdown | start | stop | raised | release | send | claim | record =>
      exact held_setProcess_ne _ fun same => other (congrArg some same.symm)
  | deliver =>
      unfold Fleet.deliver
      split <;> exact held_setProcess_ne _ fun same => other (congrArg some same.symm)

theorem release_disposes {l : Label} {rest : List Nat} (action : l.action = .release w)
    (turn : s.workers w = ⟨.serving (id :: rest), true⟩) :
    Disposes D w id s l ∧
      ¬ ({ s with db := releaseClaim s.db id }.moveTo w (.serving rest)).db.Claims w id := by
  refine ⟨.returned action turn, ?_⟩
  rintro ⟨m', found', sending, _⟩
  rw [moveTo_db, find?_releaseClaim] at found'
  obtain ⟨m, found, rfl⟩ := Option.map_eq_some_iff.mp found'
  obtain rfl := Table.key_of_find? found
  by_cases flying : m.status = .sending
  · rw [if_pos ⟨rfl, flying⟩] at sending
    cases sending
  · rw [if_neg fun both => flying both.2] at sending
    exact flying sending

/-- The step of a worker that is busy and not poisoned: a message stays in hand, or is
disposed of. -/
theorem disposes_of_step {l : Label} (h : step D s l = some t) (busy : AtWork w s l)
    (clean : ¬ Poisoned D w s l) (linked : ∀ id ∈ s.held w, (deliveryRow s.db id).isSome = true)
    (holds : id ∈ s.held w) : id ∈ t.held w ∨ Disposes D w id s l ∧ ¬ t.db.Claims w id := by
  obtain ⟨u, taken, rfl⟩ := Option.map_eq_some_iff.mp h
  change id ∈ u.held w ∨ _ ∧ ¬ u.db.Claims w id
  by_cases own : l.action.actor? = some w
  swap
  · exact .inl (held_of_other taken own ▸ holds)
  generalize action : l.action = act at own taken
  cases acts_of_advance D taken with
  | ingest | suppress | unsuppress | invalid | changeDomain | setMailboxActive => cases own
  | @kill w' =>
      have lives := busy.2
      rw [action] at lives
      simp [Action.kills, Option.some.inj own] at lives
  | raised => exact absurd (.raised (action.trans (congrArg _ (Option.some.inj own)))) clean
  | start idle | reap idle | purge idle | claim idle =>
      obtain rfl := Option.some.inj own
      exact absurd (held_of_phase idle) busy.1
  | stop idle =>
      obtain rfl := Option.some.inj own
      exact absurd (held_of_phase (congrArg Process.phase idle)) busy.1
  | requestShutdown =>
      obtain rfl := Option.some.inj own
      exact .inl (by rwa [held_setProcess_self])
  | send turn =>
      obtain rfl := Option.some.inj own
      refine .inl ?_
      rw [held_moveTo_self]
      exact held_of_phase turn ▸ holds
  | release turn =>
      obtain rfl := Option.some.inj own
      rw [held_of_phase (congrArg Process.phase turn)] at holds
      rcases List.mem_cons.mp holds with rfl | waits
      · exact .inr (release_disposes action turn)
      · exact .inl (by rwa [held_moveTo_self])
  | @deliver w' fails id' rest turn =>
      obtain rfl := Option.some.inj own
      have phase : (s.workers w').phase = .serving (id' :: rest) := congrArg Process.phase turn
      rcases deliver_disposes action phase (linked id' (mem_held phase List.mem_cons_self)) clean
        (s.clock + l.wait + l.lapse) with goes | ⟨left, done⟩
      · rw [held_of_phase phase] at holds
        exact .inl (by rwa [goes])
      · rw [held_of_phase phase] at holds
        rcases List.mem_cons.mp holds with rfl | waits
        · exact .inr done
        · exact .inl (by rwa [left])
  | @record w' result latencyMs jitter race a rest turn =>
      obtain rfl := Option.some.inj own
      obtain ⟨left, done⟩ := record_disposes action turn
        (linked a.messageId (mem_held turn List.mem_cons_self)) clean (s.clock + l.wait)
        (s.clock + l.wait + l.lapse)
      rw [held_of_phase turn] at holds
      rcases List.mem_cons.mp holds with rfl | waits
      · exact .inr ⟨.attempted action turn rfl, done⟩
      · exact .inl (by rwa [left])

/-- A worker goes on with what it holds, gives up the first of it, or claims. -/
theorem Effect.held_cases (e : Effect D s now later act t) (w : String) :
    t.held w = s.held w ∨ (t.held w).Sublist (s.held w).tail ∨
      s.held w = [] ∧ ∃ locked limit, (t.held w).Perm (dueMessages s.db locked limit now) := by
  have elsewhere : ∀ {v : Fleet} {w' : String} {phase : Phase}, w ≠ w' → v.workers = s.workers →
      (v.moveTo w' phase).held w = s.held w := by
    intro v w' phase ne same
    rw [held_moveTo_ne phase ne, Fleet.held, same, Fleet.held]
  cases e with
  | aside | accepted | reaped | purged | domainChanged | mailboxChanged => exact .inl rfl
  | @process _ w' p quiet =>
      by_cases eq : w = w'
      · subst eq
        rw [held_setProcess_self]
        rcases quiet with same | down | idle
        · exact .inl (by rw [same, Fleet.held])
        · exact .inr (.inl (by rw [down]; exact List.nil_sublist _))
        · exact .inr (.inl (by rw [idle]; exact List.nil_sublist _))
      · exact .inl (held_setProcess_ne p eq)
  | @claimed w' _ _ idle perm =>
      by_cases eq : w = w'
      · subst eq
        exact .inr (.inr ⟨held_of_phase idle, _, _, by rw [held_moveTo_self]; exact perm⟩)
      · exact .inl (elsewhere eq rfl)
  | @released w' _ _ turn =>
      by_cases eq : w = w'
      · subst eq
        exact .inr (.inl (by rw [held_moveTo_self, held_of_phase turn]; exact .refl _))
      · exact .inl (elsewhere eq rfl)
  | @sent w' _ _ _ turn =>
      by_cases eq : w = w'
      · subst eq
        exact .inl (by rw [held_moveTo_self, held_of_phase turn]; rfl)
      · exact .inl (elsewhere eq rfl)
  | @recorded w' _ _ _ _ _ _ _ _ turn fewer =>
      by_cases eq : w = w'
      · subst eq
        exact .inr (.inl (by rw [held_moveTo_self, held_of_phase turn]; exact fewer))
      · exact .inl (elsewhere eq rfl)
  | @opened w' _ id _ _ _ turn opens =>
      by_cases eq : w = w'
      · subst eq
        rw [held_moveTo_self, held_of_phase turn]
        cases opens with
        | gone | held | undeliverable => exact .inr (.inl (.refl _))
        | stamped row =>
            obtain rfl := Table.key_of_find? (deliveryRow_eq_some.mp row).1
            exact .inl rfl
      · exact .inl (elsewhere eq rfl)

theorem Effect.held_busy (e : Effect D s now later act t) (busy : s.held w ≠ []) :
    t.held w = s.held w ∨ (t.held w).Sublist (s.held w).tail := by
  rcases e.held_cases w with same | fewer | ⟨idle, _⟩
  · exact .inl same
  · exact .inr fewer
  · exact absurd idle busy

theorem Effect.held_subset (e : Effect D s now later act t) (busy : s.held w ≠ []) :
    t.held w ⊆ s.held w := by
  rcases e.held_busy busy with same | fewer
  · exact same ▸ List.Subset.refl _
  · exact fun id mem => List.mem_of_mem_tail (fewer.subset mem)

/-- The batch as it is served: the first half of the law, from the middle of the batch. -/
theorem settles_of_clean {labels : List Label} (run : execute (step D) s labels = some t)
    (busy : Along (step D) (AtWork w) s labels)
    (clean : Along (step D) (fun s l => ¬ Poisoned D w s l) s labels) (back : t.held w = [])
    (linked : ∀ id ∈ s.held w, (deliveryRow s.db id).isSome = true) :
    (∀ id ∈ s.held w, Sometime (step D) (Disposes D w id) s labels ∧ ¬ t.db.Claims w id) ∧
      ∀ id, ¬ s.db.Claims w id → ¬ t.db.Claims w id := by
  induction labels generalizing s with
  | nil =>
      cases run
      rw [back]
      exact ⟨by simp, fun _ h => h⟩
  | cons l labels ih =>
      obtain ⟨r, first, rest⟩ := Option.bind_eq_some_iff.mp run
      obtain ⟨u, e, moved⟩ := effect_of_step D first
      have linked' : ∀ id ∈ r.held w, (deliveryRow r.db id).isSome = true := by
        subst moved
        exact fun id holds => e.linked (linked id (e.held_subset busy.1.1 holds))
      obtain ⟨inHand, left⟩ := ih rest (busy.2 r first) (clean.2 r first) linked'
      have unclaimed : ∀ id, ¬ s.db.Claims w id → ¬ r.db.Claims w id := fun id h => by
        subst moved
        exact e.unclaimed busy.1.1 h
      refine ⟨fun id holds => ?_, fun id h => left id (unclaimed id h)⟩
      rcases disposes_of_step first busy.1 clean.1 linked holds with still | ⟨disposed, done⟩
      · exact ⟨.inr ⟨r, first, (inHand id still).1⟩, (inHand id still).2⟩
      · exact ⟨.inl disposed, left id done⟩

/-! What an exception leaves behind. -/

/-- The row is in flight in the name of the worker, and no other has it in hand. -/
structure Kept (w : String) (id : Nat) (s : Fleet) : Prop where
  claims : s.db.Claims w id
  single : ∀ w', id ∈ s.held w' → w' = w

theorem not_due_of_sending {db : Database} {locked : Nat → Bool} {limit : Nat}
    {m : Message} (found : db.messages.find? id = some m) (sending : m.status = .sending) :
    m.id ∉ dueMessages db locked limit now := by
  intro taken
  obtain ⟨m', mem, same, due⟩ := due_of_mem_dueMessages taken
  obtain rfl := Table.eq_of_key_eq mem (Table.mem_of_find? found) same
  simp only [Message.due, Bool.and_eq_true, decide_eq_true_eq] at due
  exact due.1.ne_sending sending

/-- A message that is claimed stays so while its worker does not turn to it and the
reaper does not come to it. -/
theorem Effect.keptRow (e : Effect D s now later act t) (kept : Kept w id s)
    (turn : ∀ rest, s.held w = id :: rest → t.held w = s.held w)
    (unreaped : ∀ w', act = .reap w' → ∀ m, s.db.messages.find? id = some m →
      ¬ m.stale (now - staleClaimAfter) = true) : t.db.Claims w id := by
  obtain ⟨⟨m, found, sending, mine⟩, single⟩ := kept
  -- whoever gives up a message has it in hand, and the worker does not give up this one
  have apart : ∀ {w' : String} {id' : Nat} {rest : List Nat}, s.held w' = id' :: rest →
      (t.held w').Sublist rest → id ≠ id' := by
    rintro w' id' rest holds less rfl
    obtain rfl := single w' (holds ▸ List.mem_cons_self)
    have shorter := less.length_le
    rw [turn rest holds, holds, List.length_cons] at shorter
    exact absurd shorter (Nat.not_succ_le_self _)
  cases e with
  | aside same => exact ⟨m, by rw [same.messages, found], sending, mine⟩
  | accepted stored =>
      refine ⟨m, ?_, sending, mine⟩
      dsimp only
      rw [stored.stored.messages, if_neg, found]
      rintro rfl
      rw [stored.stored.fresh] at found
      cases found
  | process | sent | domainChanged | mailboxChanged => exact ⟨m, found, sending, mine⟩
  | claimed =>
      refine ⟨m, ?_, sending, mine⟩
      rw [moveTo_db, find?_claimMessages, found, Option.map_some,
        if_neg (not_due_of_sending found sending)]
  | released turn' =>
      have other := apart (held_of_phase turn') (by rw [held_moveTo_self]; exact .refl _)
      refine ⟨m, ?_, sending, mine⟩
      rw [moveTo_db, find?_releaseClaim, found, Option.map_some, if_neg]
      exact fun both => other ((Table.key_of_find? found).symm.trans both.1)
  | opened turn' opens =>
      cases opens with
      | gone => exact ⟨m, found, sending, mine⟩
      | held _ rewrites | undeliverable _ _ _ rewrites =>
          have other := apart (held_of_phase turn') (by rw [held_moveTo_self]; exact .refl _)
          exact ⟨m, (rewrites.other other).trans found, sending, mine⟩
      | stamped _ _ _ rewrites =>
          rw [moveTo_db] at *
          unfold Database.Claims
          rw [rewrites.messages]
          split
          · exact ⟨m.stamp later, by rw [found]; rfl, sending, mine⟩
          · exact ⟨m, found, sending, mine⟩
  | recorded turn' fewer kept =>
      have other := apart (held_of_phase turn') (by rw [held_moveTo_self]; exact fewer)
      rcases kept with ⟨_, _, rewrites⟩ | same
      · exact ⟨m, (rewrites.other other).trans found, sending, mine⟩
      · exact ⟨m, by rw [moveTo_db, same.messages, found], sending, mine⟩
  | reaped =>
      refine ⟨m, ?_, sending, mine⟩
      rw [find?_reapStaleClaims, found, Option.map_some, if_neg (unreaped _ rfl m found)]
  | purged =>
      unfold Database.Claims
      rw [find?_purgeExpiredBodies, found, Option.map_some]
      refine ⟨_, rfl, ?_⟩
      split <;> exact ⟨sending, mine⟩

/-- No other worker gets hold of it. -/
theorem Effect.keptSingle (e : Effect D s now later act t) (kept : Kept w id s) (w' : String)
    (holds : id ∈ t.held w') : w' = w := by
  rcases e.held_cases w' with same | fewer | ⟨_, locked, limit, perm⟩
  · exact kept.single w' (same ▸ holds)
  · exact kept.single w' (List.mem_of_mem_tail (fewer.subset holds))
  · obtain ⟨m, found, sending, _⟩ := kept.claims
    have due := perm.mem_iff.mp holds
    rw [← Table.key_of_find? found] at due
    exact absurd due (not_due_of_sending found sending)

theorem Effect.kept (e : Effect D s now later act t) (kept : Kept w id s)
    (turn : ∀ rest, s.held w = id :: rest → t.held w = s.held w)
    (unreaped : ∀ w', act = .reap w' → ∀ m, s.db.messages.find? id = some m →
      ¬ m.stale (now - staleClaimAfter) = true) : Kept w id t where
  claims := e.keptRow kept turn unreaped
  single := e.keptSingle kept

/-- All that the worker has in hand is in flight in its name, and in no other hand. -/
structure Keeps (w : String) (s : Fleet) : Prop where
  nodup : (s.held w).Nodup
  kept : ∀ id ∈ s.held w, Kept w id s

/-- No reaping takes back a message of the batch. -/
def Unreaped (ids : List Nat) (s : Fleet) (l : Label) : Prop :=
  ∀ w, l.action = .reap w → ∀ m ∈ s.db.messages,
    m.stale (s.clock + l.wait - staleClaimAfter) = true → m.id ∉ ids

theorem Unreaped.not_stale {ids : List Nat} {l : Label} (h : Unreaped ids s l) (mem : id ∈ ids)
    (w' : String) (reap : l.action = .reap w') (m : Message)
    (found : s.db.messages.find? id = some m) :
    ¬ m.stale (s.clock + l.wait - staleClaimAfter) = true := fun stale =>
  h w' reap m (Table.mem_of_find? found) stale (Table.key_of_find? found ▸ mem)

theorem Keeps.step {ids : List Nat} {l : Label} (h : Keeps w s)
    (e : Effect D s (s.clock + l.wait) later l.action t) (busy : s.held w ≠ [])
    (subset : s.held w ⊆ ids) (unreaped : Unreaped ids s l) : Keeps w t where
  nodup := by
    rcases e.held_busy busy with same | fewer
    · exact same ▸ h.nodup
    · exact h.nodup.sublist (fewer.trans (List.tail_sublist _))
  kept id holds := by
    have held := e.held_subset busy holds
    refine e.kept (h.kept id held) (fun rest head => ?_) (unreaped.not_stale (subset held))
    rcases e.held_busy busy with same | fewer
    · exact same
    · -- the first message is in hand once, so it is not among the others
      have distinct := h.nodup
      rw [head] at distinct fewer
      exact absurd (fewer.subset holds) (List.nodup_cons.mp distinct).1

/-- A poisoned step changes no message, and the worker gives the first one up. -/
theorem poisoned_step {l : Label} (h : step D s l = some t) (poisoned : Poisoned D w s l)
    {rest : List Nat} (head : s.held w = id :: rest) :
    t.db.messages = s.db.messages ∧ (t.held w).Sublist rest := by
  obtain ⟨u, taken, rfl⟩ := Option.map_eq_some_iff.mp h
  change u.db.messages = _ ∧ (u.held w).Sublist rest
  cases poisoned with
  | raised action =>
      rw [action] at taken
      dsimp only [advance] at taken
      split at taken <;> cases taken
      exact ⟨rfl, by rw [held_moveTo_self]; exact List.nil_sublist _⟩
  | @adapter id' rest' m mailbox domain action turn found room host =>
      rw [action] at taken
      dsimp only [advance] at taken
      split at taken <;> cases taken
      rename_i phase
      have same := turn.symm.trans (congrArg Process.phase phase)
      simp only [Phase.serving.injEq, List.cons.injEq] at same
      obtain ⟨rfl, rfl⟩ := same
      obtain ⟨name, host⟩ := Option.ne_none_iff_exists'.mp host
      have fails : openDelivery D.margin true s.db id' (s.clock + l.wait)
          (s.clock + l.wait + l.lapse) = .error .adapterUnavailable := by
        simp only [openDelivery, found, room, host, Bool.false_eq_true, if_false, if_true]
      rw [Fleet.deliver, fails]
      exact ⟨rfl, by rw [held_moveTo_self]; exact List.nil_sublist _⟩
  | @hindered result latencyMs jitter race a rest' m action turn found hindered =>
      rw [action] at taken
      dsimp only [advance] at taken
      split at taken <;> cases taken
      rename_i phase
      have same := turn.symm.trans phase
      simp only [Phase.awaiting.injEq] at same
      obtain ⟨rfl, rfl⟩ := same
      obtain ⟨_, rfl⟩ := List.cons.inj ((held_of_phase turn).symm.trans head)
      have same := (recordOutcome_hindered D.rt race
        ⟨result, a.number, latencyMs, jitter, s.clock + l.wait, s.clock + l.wait + l.lapse⟩ found
        hindered).messages
      unfold Fleet.record
      generalize sessionScope (recordOutcome D.rt race a.messageId _) s.db = run at *
      obtain ⟨outcome, db⟩ := run
      refine ⟨same, ?_⟩
      rw [held_moveTo_self]
      cases outcome with
      | ok => exact .refl _
      | error => exact List.nil_sublist _

theorem Poisoned.kept {l : Label} (h : step D s l = some t) (poisoned : Poisoned D w s l)
    (keeps : Keeps w s) {rest : List Nat} (head : s.held w = id :: rest) :
    Kept w id t ∧ id ∉ t.held w := by
  obtain ⟨messages, fewer⟩ := poisoned_step h poisoned head
  have kept := keeps.kept id (head ▸ List.mem_cons_self)
  have gone : id ∉ t.held w := fun holds =>
    (List.nodup_cons.mp (head ▸ keeps.nodup)).1 (fewer.subset holds)
  obtain ⟨m, found, claim⟩ := kept.claims
  refine ⟨⟨⟨m, by rw [messages, found], claim⟩, ?_⟩, gone⟩
  obtain ⟨u, e, rfl⟩ := effect_of_step D h
  exact e.keptSingle kept

/-- Once given up, a message that is in flight stays so until the reaper comes. -/
theorem Kept.run {ids : List Nat} {labels : List Label} (h : Kept w id s) (gone : id ∉ s.held w)
    (mem : id ∈ ids) (run : execute (step D) s labels = some t)
    (busy : Along (step D) (AtWork w) s labels)
    (unreaped : Along (step D) (Unreaped ids) s labels) :
    Kept w id t := by
  induction labels generalizing s with
  | nil =>
      cases run
      exact h
  | cons l labels ih =>
      obtain ⟨r, first, rest⟩ := Option.bind_eq_some_iff.mp run
      obtain ⟨u, e, moved⟩ := effect_of_step D first
      have held : Kept w id r ∧ id ∉ r.held w := by
        subst moved
        have kept := e.kept h (fun _ head => absurd (head ▸ List.mem_cons_self) gone)
          (unreaped.1.not_stale mem)
        exact ⟨⟨kept.claims, kept.single⟩, fun holds => gone (e.held_subset busy.1.1 holds)⟩
      exact ih held.1 held.2 rest (busy.2 r first) (unreaped.2 r first)

/-- The second half of the law, from the middle of the batch. -/
theorem clean_of_settled {ids : List Nat} {labels : List Label}
    (run : execute (step D) s labels = some t) (busy : Along (step D) (AtWork w) s labels)
    (unreaped : Along (step D) (Unreaped ids) s labels) (keeps : Keeps w s)
    (subset : s.held w ⊆ ids) (settled : ∀ id ∈ ids, ¬ t.db.Claims w id) :
    Along (step D) (fun s l => ¬ Poisoned D w s l) s labels := by
  induction labels generalizing s with
  | nil => trivial
  | cons l labels ih =>
      obtain ⟨r, first, rest⟩ := Option.bind_eq_some_iff.mp run
      refine ⟨fun poisoned => ?_, fun r' first' => ?_⟩
      · cases head : s.held w with
        | nil => exact busy.1.1 head
        | cons id others =>
            obtain ⟨kept, gone⟩ := poisoned.kept first keeps head
            have mem : id ∈ ids := subset (head ▸ List.mem_cons_self)
            exact settled id mem
              (kept.run gone mem rest (busy.2 r first) (unreaped.2 r first)).claims
      · obtain rfl := Option.some.inj (first.symm.trans first')
        obtain ⟨u, e, moved⟩ := effect_of_step D first
        have next : Keeps w r ∧ r.held w ⊆ ids := by
          subst moved
          have kept := keeps.step e busy.1.1 subset unreaped.1
          exact ⟨⟨kept.nodup, fun id holds => ⟨(kept.kept id holds).claims,
            (kept.kept id holds).single⟩⟩, fun id holds => subset (e.held_subset busy.1.1 holds)⟩
        exact ih rest (busy.2 r first) (unreaped.2 r first) next.1 next.2

/-- Right after the claim. -/
structure Claimed (w : String) (ids : List Nat) (s : Fleet) : Prop where
  held : s.held w = ids
  nodup : ids.Nodup
  claims : ∀ id ∈ ids, s.db.Claims w id
  linked : ∀ id ∈ ids, (deliveryRow s.db id).isSome = true

theorem claimed_of_step {wait lapse : Nat} {locked : Nat → Bool} {ids : List Nat}
    (refs : s.db.Referential) (h : step D s ⟨wait, lapse, .claim w locked ids⟩ = some t) :
    Claimed w ids t := by
  obtain ⟨u, taken, rfl⟩ := Option.map_eq_some_iff.mp h
  have e := effect_of_advance D taken
  dsimp only [advance] at taken
  split at taken
  swap
  · cases taken
  split at taken <;> cases taken
  rename_i perm
  have rows : ∀ id ∈ ids, ∃ m ∈ s.db.messages, m.id = id ∧
      id ∈ dueMessages s.db locked batchSize (s.clock + wait) := fun id mem => by
    have due := perm.mem_iff.mp mem
    obtain ⟨m, there, same, _⟩ := due_of_mem_dueMessages due
    exact ⟨m, there, same, due⟩
  refine ⟨held_moveTo_self _, perm.nodup_iff.mpr (dueMessages_nodup ..), fun id mem => ?_,
    fun id mem => e.linked ?_⟩
  · obtain ⟨m, there, rfl, due⟩ := rows id mem
    refine ⟨m.claim w (s.clock + wait), ?_, rfl, rfl⟩
    dsimp only
    rw [moveTo_db, find?_claimMessages, Table.find?_of_mem there, Option.map_some, if_pos due]
  · obtain ⟨m, there, rfl, _⟩ := rows id mem
    exact referential_deliveryRow refs there

/-- Nobody interferes with a batch: no other worker has one of its messages in hand,
and no reaping takes one back while it is served. -/
structure Undisturbed (D : Deployment) (w : String) (ids : List Nat) (s : Fleet)
    (labels : List Label) : Prop where
  exclusive : ∀ w', ∀ id ∈ ids, id ∈ s.held w' → w' = w
  unreaped : Along (step D) (Unreaped ids) s labels

/-- A worker that has claimed a batch comes back to the main loop with every message
disposed of and none left in flight if no step on the way is poisoned, whatever
the others do meanwhile; and unless they interfere with the batch only then. -/
theorem batch_settles_iff {s₀ s₁ u : Fleet} {wait lapse : Nat} {locked : Nat → Bool}
    {ids : List Nat} {labels : List Label} (refs : s₀.db.Referential)
    (claimed : step D s₀ ⟨wait, lapse, .claim w locked ids⟩ = some s₁)
    (run : execute (step D) s₁ labels = some u) (busy : Along (step D) (AtWork w) s₁ labels)
    (back : (u.workers w).phase = .serving []) :
    (Along (step D) (fun s l => ¬ Poisoned D w s l) s₁ labels → Settled D w ids s₁ labels u) ∧
      (Undisturbed D w ids s₁ labels → Settled D w ids s₁ labels u →
        Along (step D) (fun s l => ¬ Poisoned D w s l) s₁ labels) := by
  obtain ⟨held, nodup, claims, linked⟩ := claimed_of_step refs claimed
  constructor
  · intro clean
    have done := (settles_of_clean run busy clean (held_of_phase back)
      (held.symm ▸ linked)).1
    rw [held] at done
    exact ⟨fun id mem => (done id mem).1.mono fun _ _ => .inl, fun id mem => (done id mem).2⟩
  · rintro ⟨exclusive, unreaped⟩ ⟨_, unserved⟩
    exact clean_of_settled run busy unreaped ⟨held ▸ nodup, fun id holds =>
      ⟨claims id (held ▸ holds), fun w' => exclusive w' id (held ▸ holds)⟩⟩
      (held ▸ List.Subset.refl _) unserved

end Fleet

/-! Two letters of one mailbox. -/
namespace Sample

def twoLetters : Fleet := final (step deployment) (solo mailbox) [
  accept mailbox 1 "ann@example.net" [], accept mailbox 2 "bob@example.net" []]

def bothClaimed : Fleet := final (step deployment) twoLetters [claimBy "A" [1, 2]]

/-- The mailbox's password cannot be decrypted. -/
def adapterFails : List Label := [now (.deliver "A" true)]

/-- Both letters are sent, and the provider accepts them. -/
def served : List Label := [
  now (.deliver "A" false), now (.send "A"), recordBy "A" (accepted ["ann@example.net"]),
  now (.deliver "A" false), now (.send "A"), recordBy "A" (accepted ["bob@example.net"])]

def idle (w : String) (s : Fleet) : Bool :=
  match (s.workers w).phase with
  | .serving [] => true
  | _ => false

theorem phase_of_idle {w : String} {s : Fleet} (h : idle w s = true) :
    (s.workers w).phase = .serving [] := by
  unfold idle at h
  split at h
  · assumption
  · cases h

theorem bothClaimed_step : step deployment twoLetters (claimBy "A" [1, 2]) = some bothClaimed := by
  have run : (execute (step deployment) twoLetters [claimBy "A" [1, 2]]).map (fun _ => ()) =
      some () := by decide +kernel
  obtain ⟨t, first, last⟩ := Option.bind_eq_some_iff.mp (execute_final run)
  exact first.trans last

end Sample

open Sample

/-- The first letter cannot be sent; both are left in flight, the second one untried. -/
theorem poisoned_batch_is_left :
    step deployment twoLetters (claimBy "A" [1, 2]) = some bothClaimed ∧
    ∃ u, execute (step deployment) bothClaimed adapterFails = some u ∧
      Along (step deployment) (AtWork "A") bothClaimed adapterFails ∧
      (u.workers "A").phase = .serving [] ∧
      ¬ Settled deployment "A" [1, 2] bothClaimed adapterFails u := by
  have run : (execute (step deployment) bothClaimed adapterFails).map (fun s =>
      (idle "A" s, (s.db.messages.find? 2).map fun m => (m.status, m.claimedBy))) =
      some (true, some (.sending, some "A")) := by decide +kernel
  have seen := view_final run
  obtain ⟨back, left⟩ := Prod.mk.inj seen
  refine ⟨bothClaimed_step, _, execute_final run, by decide +kernel, phase_of_idle back, ?_⟩
  rintro ⟨_, served⟩
  obtain ⟨m, found, row⟩ := Option.map_eq_some_iff.mp left
  obtain ⟨sending, mine⟩ := Prod.mk.inj row
  exact served 2 (by decide) ⟨m, found, sending, mine⟩

theorem twoLetters_referential : twoLetters.db.Referential :=
  ⟨by decide +kernel, by decide +kernel⟩

theorem served_batch_is_settled :
    ∃ u, execute (step deployment) bothClaimed served = some u ∧
      Settled deployment "A" [1, 2] bothClaimed served u := by
  have run : (execute (step deployment) bothClaimed served).map (idle "A") = some true := by
    decide +kernel
  have clean : Along (step deployment) (fun s l => ¬ Poisoned deployment "A" s l) bothClaimed
      served := by
    refine along_of_labels fun l mem s poisoned => ?_
    simp only [served, now, recordBy, List.mem_cons, List.not_mem_nil, or_false] at mem
    cases poisoned with
    | raised action => rcases mem with rfl | rfl | rfl | rfl | rfl | rfl <;> cases action
    | adapter action => rcases mem with rfl | rfl | rfl | rfl | rfl | rfl <;> cases action
    | hindered action _ _ hindered =>
        -- nobody is refused, and the answer is legible
        have nobody (address : String) (m : Message) :
            suppressionCandidates m (accepted [address]) = [] := rfl
        rcases mem with rfl | rfl | rfl | rfl | rfl | rfl <;> cases action <;>
          exact hindered ⟨by decide, nobody _ _ ▸ smooth_nil _ _⟩
  exact ⟨_, execute_final run, (batch_settles_iff twoLetters_referential bothClaimed_step
    (execute_final run) (by decide +kernel) (phase_of_idle (view_final run))).1 clean⟩

end Emaild
