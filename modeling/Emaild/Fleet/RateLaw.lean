import Mathlib.Algebra.Order.Group.Int
import Emaild.Fleet.Lifecycle

/-!
The hourly law of a sender identity: calls of the adapter against rows with a
recent attempt. A row remembers one attempt, the last, and remembers when it was
stamped, not when the call was made. The gate therefore sees every call of the
last hour only if no message is stamped twice within an hour and no stamp waits
for its call across the edge of the window.
-/
namespace Emaild.Fleet
open Relational Transition SlidingWindow

/-- The times of the calls for a mailbox. -/
def sendTimes (s : Fleet) (mailboxId : Nat) : List Time :=
  (s.wire.filter fun c => c.attempt.mailbox.id = mailboxId).map Call.time

/-- If a delivery passes the gate, its message was not attempted in the hour
before, and no call of that hour was stamped before the hour began. -/
def GateSeesAll (D : Deployment) (s : Fleet) (l : Label) : Prop :=
  ∀ w fails id rest m mailbox domain, l.action = .deliver w fails →
    (s.workers w).phase = .serving (id :: rest) →
    deliveryRow s.db id = some (m, mailbox, domain) →
    (currentBudget s.db mailbox D.margin (s.clock + l.wait)).exhausted = false →
    (∀ last, m.lastAttemptAt = some last → last < s.clock + l.wait - window) ∧
      ∀ c ∈ s.wire, c.attempt.mailbox.id = mailbox.id → s.clock + l.wait - window ≤ c.time →
        s.clock + l.wait - window ≤ c.attempt.stampedAt

/-- The row of an attempt remembers it, or a later one. -/
def Logged (s : Fleet) (a : Attempt) : Prop :=
  a.stampedAt ≤ s.clock ∧ ∃ m last, s.db.messages.find? a.messageId = some m ∧
    m.mailboxId = a.mailbox.id ∧ m.lastAttemptAt = some last ∧ a.stampedAt ≤ last

/-- A stamped attempt that may be sent: no call of its message lies in the hour
before it, and there is room in that hour. -/
structure Admitted (D : Deployment) (s : Fleet) (a : Attempt) : Prop where
  logged : s.Logged a
  first : ∀ c ∈ s.wire, c.attempt.messageId = a.messageId → c.time + window < a.stampedAt
  room : ∀ mailbox ∈ s.db.mailboxes, mailbox.id = a.mailbox.id →
    since (a.stampedAt - window) (s.sendTimes mailbox.id) < ceiling D.margin mailbox

structure Metered (D : Deployment) (s : Fleet) : Prop where
  logged : ∀ c ∈ s.wire, s.Logged c.attempt ∧ c.time ≤ s.clock
  spaced : s.wire.Pairwise fun c c' =>
    c.attempt.messageId = c'.attempt.messageId → c.time + window < c'.time
  admitted : ∀ w a store rest, (s.workers w).phase = .stamped a store rest → s.Admitted D a
  within : ∀ mailbox ∈ s.db.mailboxes,
    Within (ceiling D.margin mailbox) window (s.sendTimes mailbox.id)

variable {D : Deployment} {s t : Fleet} {l : Label} {now later : Time} {act : Action}

theorem Initial.metered (h : s.Initial) : Metered D s where
  logged c hc := by simp [h.wire] at hc
  spaced := by simp [h.wire]
  admitted w a store rest hw := by simp [h.workers w] at hw
  within mailbox _ := by simpa [sendTimes, h.wire] using within_nil _ _

/-- No step changes a limit. -/
theorem Effect.limit (e : Effect D s now later act t) {mailbox : Mailbox}
    (mem : mailbox ∈ t.db.mailboxes) : ∃ before ∈ s.db.mailboxes,
      before.id = mailbox.id ∧ before.hourlyLimit = mailbox.hourlyLimit := by
  cases e.mailbox mailbox.id with
  | same eq =>
      exact ⟨mailbox, Table.mem_of_find? (eq ▸ Table.find?_of_mem mem), rfl, rfl⟩
  | changed _ eq =>
      rw [Table.find?_of_mem mem] at eq
      obtain ⟨before, found, rfl⟩ := Option.map_eq_some_iff.mp eq.symm
      exact ⟨before, Table.mem_of_find? found, rfl, rfl⟩

theorem ceiling_congr {margin : SafetyMargin} {mailbox mailbox' : Mailbox}
    (h : mailbox.hourlyLimit = mailbox'.hourlyLimit) :
    ceiling margin mailbox = ceiling margin mailbox' := by
  rw [ceiling, h, ceiling]

/-- The column of the last attempt only moves forward. -/
theorem RowChange.lastAttempt {m m' : Message} (c : RowChange D s now later act m m') :
    m'.lastAttemptAt = m.lastAttemptAt ∨ m'.lastAttemptAt = some later := by
  cases c with
  | stamped => exact .inr rfl
  | recorded => exact .inl (Recording.row_spec _ m).2.lastAttempt
  | _ => exact .inl rfl

theorem RowChange.lastAttempt_of_quiet {m m' : Message} (c : RowChange D s now later act m m')
    (quiet : ∀ w fails, act ≠ .deliver w fails) : m'.lastAttemptAt = m.lastAttemptAt := by
  cases c with
  | stamped => exact absurd rfl (quiet _ _)
  | recorded => exact (Recording.row_spec _ m).2.lastAttempt
  | _ => rfl

theorem Effect.logged (e : Effect D s now later act t) (forward : s.clock ≤ later) {a : Attempt}
    (h : s.Logged a) : Logged { t with clock := later } a := by
  obtain ⟨past, m, last, found, mailbox, column, order⟩ := h
  refine ⟨past.trans forward, ?_⟩
  cases e.row a.messageId with
  | same eq => exact ⟨m, last, eq.trans found, mailbox, column, order⟩
  | changed before after change =>
      obtain rfl := Option.some.inj (found.symm.trans before)
      have box := change.letter.mailboxId.trans mailbox
      rcases change.lastAttempt with same | stamped
      · exact ⟨_, last, after, box, same.trans column, order⟩
      · exact ⟨_, later, after, box, stamped, past.trans forward⟩
  | new _ before => rw [before] at found; cases found

/-- What the gate counts covers the calls of the last hour, if it sees them all. -/
theorem Metered.since_le_used (h : Metered D s) {mailbox : Mailbox} (start : s.clock ≤ now)
    (prompt : ∀ c ∈ s.wire, c.attempt.mailbox.id = mailbox.id → now - window ≤ c.time →
      now - window ≤ c.attempt.stampedAt) :
    since (now - window) (s.sendTimes mailbox.id) ≤
      (currentBudget s.db mailbox D.margin now).used := by
  let recent := (s.wire.filter fun c => c.attempt.mailbox.id = mailbox.id).filter
    fun c => now - window ≤ c.time
  have counted : since (now - window) (s.sendTimes mailbox.id) =
      (recent.map fun c => c.attempt.messageId).length := by
    rw [since, sendTimes, List.countP_map, List.countP_eq_length_filter, List.length_map]
    rfl
  have mem : ∀ c ∈ recent, c ∈ s.wire ∧ c.attempt.mailbox.id = mailbox.id ∧
      now - window ≤ c.time := by
    intro c hc
    simpa [recent, and_assoc, and_comm, and_left_comm] using hc
  rw [counted]
  refine Table.length_le_count ?_ ?_
  · -- two calls of one message lie more than a window apart
    rw [List.nodup_iff_pairwise_ne, List.pairwise_map]
    refine ((h.spaced.filter _).filter _).imp_of_mem fun {c c'} hc hc' spaced same => ?_
    have early : now ≤ c.time + window := sub_le_iff_le_add.mp (mem c hc).2.2
    have late : c'.time ≤ now := (h.logged c' (mem c' hc').1).2.trans start
    exact absurd late (not_le.mpr (early.trans_lt (spaced same)))
  · intro id hid
    obtain ⟨c, hc, rfl⟩ := List.mem_map.mp hid
    obtain ⟨hwire, box, recent⟩ := mem c hc
    obtain ⟨_, m, last, found, mailboxId, column, order⟩ := (h.logged c hwire).1
    refine ⟨m, Table.mem_of_find? found, Table.key_of_find? found, Message.counted_iff.mpr ?_⟩
    exact ⟨mailboxId.trans box, last, column, (prompt c hwire box recent).trans order⟩

theorem sendTimes_append {c : Call} (sent : t.wire = s.wire ++ [c]) (mailboxId : Nat) :
    t.sendTimes mailboxId =
      s.sendTimes mailboxId ++ if c.attempt.mailbox.id = mailboxId then [c.time] else [] := by
  by_cases eq : c.attempt.mailbox.id = mailboxId <;> simp [sendTimes, sent, List.filter_append, eq]

/-- The stamp of a delivery that saw every call of the last hour admits its attempt. -/
theorem Metered.admits_stamp (h : Metered D s) (start : s.clock ≤ now) (forward : now ≤ later)
    {id : Nat} {a : Attempt} (opens : Opens D.margin s.db id now later (.stamped a) t.db)
    (wire : t.wire = s.wire)
    (sees : ∀ m mailbox domain, deliveryRow s.db id = some (m, mailbox, domain) →
      (currentBudget s.db mailbox D.margin now).exhausted = false →
      (∀ last, m.lastAttemptAt = some last → last < now - window) ∧
        ∀ c ∈ s.wire, c.attempt.mailbox.id = mailbox.id → now - window ≤ c.time →
          now - window ≤ c.attempt.stampedAt) :
    Admitted D { t with clock := later } a := by
  cases opens with
  | @stamped m mailbox domain host _ row room _ rewrites =>
      obtain ⟨found, box, _⟩ := deliveryRow_eq_some.mp row
      obtain rfl := Table.key_of_find? found
      have boxId : mailbox.id = m.mailboxId := Table.key_of_find? box
      have below := currentBudget_open_iff.mp room
      obtain ⟨rested, prompt⟩ := sees m mailbox domain row room
      refine ⟨⟨le_refl _, m.stamp later, later, rewrites.self found, boxId.symm, rfl, le_refl _⟩,
        fun c hc same => ?_, fun mailbox' mem same => ?_⟩
      · -- an earlier call of this message was stamped before the hour, so it was made before it
        have hc : c ∈ s.wire := wire ▸ hc
        obtain ⟨⟨_, m', last, found', mailboxId, column, order⟩, _⟩ := h.logged c hc
        obtain rfl := Option.some.inj (found'.symm.trans ((congrArg _ same).trans found))
        have early : c.time < now - window := by
          refine lt_of_not_ge fun late => ?_
          have stamped := prompt c hc (mailboxId.symm.trans boxId.symm) late
          exact absurd (stamped.trans order) (not_le.mpr (rested last column))
        exact (lt_sub_iff_add_lt.mp early).trans_le forward
      · have mem : mailbox' ∈ s.db.mailboxes := rewrites.mailboxes ▸ mem
        obtain rfl := Table.eq_of_key_eq mem (Table.mem_of_find? box) same
        have less := since_anti (Int.sub_le_sub_right forward window) (s.sendTimes mailbox'.id)
        simp only [sendTimes, wire] at less ⊢
        exact (less.trans (h.since_le_used start prompt)).trans_lt below

theorem Effect.metered (e : Effect D s now later act t) (start : s.clock ≤ now)
    (forward : now ≤ later) (alone : Alone s) (h : Metered D s)
    (sees : ∀ w fails id rest m mailbox domain, act = .deliver w fails →
      (s.workers w).phase = .serving (id :: rest) →
      deliveryRow s.db id = some (m, mailbox, domain) →
      (currentBudget s.db mailbox D.margin now).exhausted = false →
      (∀ last, m.lastAttemptAt = some last → last < now - window) ∧
        ∀ c ∈ s.wire, c.attempt.mailbox.id = mailbox.id → now - window ≤ c.time →
          now - window ≤ c.attempt.stampedAt) :
    Metered D { t with clock := later } := by
  have onward := start.trans forward
  -- the only worker alive does not call while it is anywhere else
  have silent : ∀ w, (s.workers w).phase ≠ .down →
      (∀ a rest, (t.workers w).phase ≠ .awaiting a rest) →
      t.wire = s.wire := by
    intro w alive elsewhere
    rcases e.wire with same | ⟨w', a, store, rest, turn, awaits, _⟩
    · exact same
    · obtain rfl := alone w w' alive (by simp [turn])
      exact absurd awaits (elsewhere a rest)
  refine ⟨fun c hc => ?_, ?_, fun w a store rest hw => ?_, fun mailbox mem => ?_⟩
  · rcases e.wire with same | ⟨w, a, store, rest, turn, _, sent⟩
    · have old := h.logged c (same ▸ hc)
      exact ⟨e.logged onward old.1, old.2.trans onward⟩
    · rcases List.mem_append.mp (sent ▸ hc) with old | new
      · exact ⟨e.logged onward (h.logged c old).1, (h.logged c old).2.trans onward⟩
      · obtain rfl := List.mem_singleton.mp new
        exact ⟨e.logged onward (h.admitted w a store rest turn).logged, forward⟩
  · rcases e.wire with same | ⟨w, a, store, rest, turn, _, sent⟩
    · exact same ▸ h.spaced
    · refine sent ▸ List.pairwise_append.mpr ⟨h.spaced, List.pairwise_singleton .., ?_⟩
      intro c hc c' hc' same
      obtain rfl := List.mem_singleton.mp hc'
      have admitted := h.admitted w a store rest turn
      exact (admitted.first c hc same).trans_le (admitted.logged.1.trans start)
  · have hw : (t.workers w).phase = .stamped a store rest := hw
    rcases e.stamped_of hw with old | ⟨fails, id, deliver, turn, rfl, opens⟩
    · have wire := silent w (by simp [old]) (by simp [hw])
      have admitted := h.admitted w a store rest old
      refine ⟨e.logged onward admitted.logged, fun c hc => admitted.first c (wire ▸ hc), ?_⟩
      intro mailbox mem same
      obtain ⟨before, there, id, limit⟩ := e.limit mem
      rw [← ceiling_congr limit, sendTimes, wire, ← id]
      exact admitted.room before there (id.trans same)
    · have wire := silent w (by simp [turn]) (by simp [hw])
      exact h.admits_stamp start forward opens wire fun m mailbox domain =>
        sees w fails id rest m mailbox domain deliver turn
  · obtain ⟨before, there, id, limit⟩ := e.limit mem
    rw [← ceiling_congr limit, ← id]
    rcases e.wire with same | ⟨w, a, store, rest, turn, _, sent⟩
    · rw [sendTimes, same]
      exact h.within before there
    · rw [sendTimes_append (s := s) (t := { t with clock := later }) sent]
      split
      · rename_i mine
        have admitted := h.admitted w a store rest turn
        refine (h.within before there).append
          (lt_of_le_of_lt ?_ (admitted.room before there mine.symm))
        exact since_anti (Int.sub_le_sub_right (admitted.logged.1.trans start) window) _
      · rw [List.append_nil]
        exact h.within before there

theorem step_metered (h : step D s l = some t) (sees : GateSeesAll D s l) (alone : Alone s)
    (metered : Metered D s) : Metered D t := by
  obtain ⟨u, e, rfl⟩ := effect_of_step D h
  exact e.metered (Int.le_add_of_nonneg_right (Int.natCast_nonneg _))
    (Int.le_add_of_nonneg_right (Int.natCast_nonneg _)) alone metered sees

/-- In every run of one worker at a time in which the gate sees every call of the
last hour, no closed interval of one hour holds more calls for a mailbox than its
ceiling. -/
theorem hourly_law (start : s.Initial)
    (run : Reaches (step D) (fun s l => OneAtATime s l ∧ GateSeesAll D s l) s t)
    {mailbox : Mailbox} (mem : mailbox ∈ t.db.mailboxes) :
    Within (ceiling D.margin mailbox) window (t.sendTimes mailbox.id) := by
  obtain ⟨_, metered⟩ := run.invariant (I := fun s => Orderly s ∧ Metered D s)
    ⟨start.orderly, start.metered⟩ fun u l v ⟨one, sees⟩ h ⟨orderly, metered⟩ =>
      ⟨step_orderly h one orderly, step_metered h sees orderly.alone metered⟩
  exact metered.within mailbox mem

end Emaild.Fleet

namespace Emaild
open Relational Transition Fleet

/-! A mailbox that may send twice an hour, and a letter that is deferred. -/
namespace Sample

def slowMailbox : Mailbox :=
  { id := 1, domainId := 1, address := "noreply@shop.example", passwordEncrypted := ""
    displayName := none, hourlyLimit := 3, active := true }

def deferred : DeliveryResult :=
  smtpSend ["ann@example.net"] (.responseException 451 "try again later")

/-- The letter is sent, and sent again after 30 and after 120 seconds. -/
def retrying : List Label := [
  accept slowMailbox 1 "ann@example.net" [],
  claimBy "A" [1], now (.deliver "A" false), now (.send "A"), recordBy "A" deferred,
  after 30 (.claim "A" (fun _ => false) [1]), now (.deliver "A" false), now (.send "A"),
  recordBy "A" deferred,
  after 120 (.claim "A" (fun _ => false) [1]), now (.deliver "A" false), now (.send "A")]

def retried : Fleet := final (step deployment) (solo slowMailbox) retrying

def claiming : List Label := [accept slowMailbox 1 "ann@example.net" [], claimBy "A" [1]]

def claimed : Fleet := final (step deployment) (solo slowMailbox) claiming

def delivering : List Label := [now (.deliver "A" false), now (.send "A")]

def sentOnce : Fleet := final (step deployment) claimed delivering

end Sample

/-- Three calls within three minutes, where the ceiling is two. -/
theorem retries_pass_the_gate :
    Reaches (step Sample.deployment) OneAtATime (Sample.fleet Sample.slowMailbox)
      Sample.retried ∧
    ¬ SlidingWindow.Within (ceiling Sample.deployment.margin Sample.slowMailbox) window
      (Sample.retried.sendTimes Sample.slowMailbox.id) := by
  have run : (execute (step Sample.deployment) (Sample.solo Sample.slowMailbox)
      Sample.retrying).map (fun s => s.sendTimes 1) =
        some [seconds 0, seconds 30, seconds 150] := by decide +kernel
  obtain ⟨rest, times⟩ : Reaches (step Sample.deployment) OneAtATime _ Sample.retried ∧ _ :=
    reaches_final _ run (by simp [OneAtATime, Sample.retrying, Sample.now, Sample.after,
      Sample.accept, Sample.claimBy, Sample.recordBy])
  refine ⟨(Sample.started (Sample.start_alone _)).trans rest, fun law => ?_⟩
  have counted := law 0
  rw [show Sample.slowMailbox.id = 1 from rfl, Sample.retried, times] at counted
  exact absurd counted (by decide)

/-- Before the first attempt of the only letter the gate has nothing to miss. -/
theorem gateSeesAll_of_first {s : Fleet} {l : Label}
    (fresh : s.db.messages.rows.map Message.lastAttemptAt = [none]) (silent : s.wire.length = 0) :
    GateSeesAll Sample.deployment s l := by
  intro w fails id rest m mailbox domain _ _ row _
  have mem := Table.mem_of_find? (deliveryRow_eq_some.mp row).1
  have column : m.lastAttemptAt = none := by
    simpa [fresh] using List.mem_map_of_mem (f := Message.lastAttemptAt) mem
  exact ⟨by simp [column], by simp [List.length_eq_zero_iff.mp silent]⟩

theorem sentOnce_within :
    Sample.slowMailbox ∈ Sample.sentOnce.db.mailboxes ∧
    SlidingWindow.Within (ceiling Sample.deployment.margin Sample.slowMailbox) window
      (Sample.sentOnce.sendTimes Sample.slowMailbox.id) := by
  let allowed : Fleet → Label → Prop := fun s l =>
    OneAtATime s l ∧ GateSeesAll Sample.deployment s l
  have claims : (execute (step Sample.deployment) (Sample.solo Sample.slowMailbox)
      Sample.claiming).map (fun s => (s.db.messages.rows.map Message.lastAttemptAt,
        s.wire.length)) = some ([none], 0) := by decide +kernel
  have delivers : (execute (step Sample.deployment) Sample.claimed Sample.delivering).map
      (fun s => s.db.mailboxes.rows) = some [Sample.slowMailbox] := by decide +kernel
  obtain ⟨first, fresh⟩ : Reaches (step Sample.deployment) allowed _ Sample.claimed ∧ _ :=
    reaches_final _ claims (by simp [allowed, OneAtATime, GateSeesAll, Sample.claiming,
      Sample.now, Sample.accept, Sample.claimBy])
  obtain ⟨second, mailboxes⟩ : Reaches (step Sample.deployment) allowed _ Sample.sentOnce ∧ _ :=
    reaches_final_cons _ delivers
      ⟨by simp [OneAtATime, Sample.now],
        gateSeesAll_of_first (Prod.mk.inj fresh).1 (Prod.mk.inj fresh).2⟩
      (by simp [allowed, OneAtATime, GateSeesAll, Sample.now])
  have mem : Sample.slowMailbox ∈ Sample.sentOnce.db.mailboxes := by
    rw [Table.mem_def, Sample.sentOnce, Sample.delivering, mailboxes]
    exact List.mem_singleton_self _
  have start : GateSeesAll Sample.deployment (Sample.fleet Sample.slowMailbox)
      (Sample.now (.start "A")) := by simp [GateSeesAll, Sample.now]
  exact ⟨mem, Fleet.hourly_law (Sample.fleet_initial _)
    (((Sample.started ⟨Sample.start_alone _, start⟩).trans first).trans second) mem⟩

end Emaild
