import Emaild.Fleet.RateLaw

/-!
Deliveries whose first transactions overlap. In `Fleet` that transaction is one
step; here its statements are, as READ COMMITTED lets them interleave: the row is
selected, the gate counts committed rows, the attempt is stamped where nobody else
sees it, and the commit shows it. Nothing holds the mailbox in between, so what
the gate has counted may be out of date when the stamp is committed.
-/
namespace Emaild
open Relational Transition Fleet

/-- How far a first transaction has come. The last three have written, and hold the
lock of their row. -/
inductive Stage
  | selected
  | full (opening : Time) (detail : EventDetail)
  | passed
  | held (opening : Time) (detail : EventDetail)
  | undeliverable
  | stamped (host : String) (stampedAt : Time)

/-- The gate is behind it, and it stamps unless it fails. -/
def Stage.admitted : Stage → Bool
  | .passed | .stamped _ _ => true
  | _ => false

/-- A first transaction that is open, with the rows it has selected. -/
structure Transaction where
  worker : String
  begun : Time
  message : Message
  mailbox : Mailbox
  domain : Domain
  stage : Stage

/-- The attempt is stamped, with the number that the selected row gives it. -/
def Message.stampAs (now : Time) (number : Nat) (m : Message) : Message :=
  { m with lastAttemptAt := some now, attempts := number }

namespace Transaction

/-- `current_budget` and, when it is exhausted, `next_window_opening`. -/
def readBudget (x : Transaction) (margin : SafetyMargin) (db : Database) (now later : Time) :
    Stage :=
  let budget := currentBudget db x.mailbox margin now
  if budget.exhausted then
    let opening := nextWindowOpening db x.mailbox.id later
    .full opening (.rateGated budget.used budget.ceiling budget.providerCeiling opening)
  else .passed

/-- The first statement that writes. -/
def firstWrite (x : Transaction) (now : Time) : Option Stage :=
  match x.stage with
  | .full opening detail => some (.held opening detail)
  | .passed => some (x.domain.smtpHost.elim .undeliverable fun host => .stamped host now)
  | _ => none

/-- What has been decided, once something is written. -/
def opening (x : Transaction) : Option Opening :=
  match x.stage with
  | .held _ _ => some .held
  | .undeliverable => some .undeliverable
  | .stamped host stampedAt => some (.stamped (x.message.attempt x.mailbox host stampedAt))
  | _ => none

/-- Its changes, on the rows that are committed when it commits. -/
def write (x : Transaction) (db : Database) : Database :=
  let id := x.message.id
  match x.stage with
  | .held opening detail =>
      (db.setMessage id (Message.hold opening)).emit id "delivery.rate_gated" detail
  | .undeliverable =>
      (db.setMessage id (Message.failPermanently x.begun none noSmtpHost true)).emit id
        "delivery.failed" (.undeliverable noSmtpHost none)
  | .stamped host stampedAt =>
      (db.setMessage id (Message.stampAs stampedAt (x.message.attempts + 1))).emit id
        "delivery.attempt" (.attempt (x.message.attempts + 1) host)
  | _ => db

end Transaction

/-- The fleet with the first transactions that are open. -/
structure Contended where
  fleet : Fleet
  transactions : Table Transaction.worker

inductive Statement
  /-- A step of the fleet that is no delivery. -/
  | whole (action : Action)
  | select (w : String)
  | gate (w : String)
  | write (w : String)
  | commit (w : String)

/-- A statement, and the microseconds that pass before each of its clock readings. -/
structure Turn where
  wait : Nat
  lapse : Nat
  statement : Statement

namespace Contended
variable (D : Deployment)

/-- Another worker's first transaction has written the row. -/
def locked (s : Contended) (id : Nat) : Bool :=
  s.transactions.rows.any fun x => x.message.id = id && x.opening.isSome

def setStage (s : Contended) (w : String) (stage : Stage) : Contended :=
  { s with transactions := s.transactions.modify w fun x => { x with stage := stage } }

/-- A delivery comes in statements, and its worker does nothing else meanwhile. -/
def blocked (s : Contended) : Action → Bool
  | .deliver _ _ => true
  | action => action.worker?.any fun w => (s.transactions.find? w).isSome

def advance (s : Contended) (now later : Time) : Statement → Option Contended
  | .whole action =>
      if s.blocked action then none
      else (Fleet.advance D s.fleet now later action).map fun fleet =>
        ⟨fleet, s.transactions.delete fun x => action.interrupts? = some x.worker⟩
  | .select w =>
      match s.fleet.workers w with
      | ⟨.serving (id :: rest), false⟩ =>
          match deliveryRow s.fleet.db id with
          | none =>
              if (s.transactions.find? w).isSome then none
              else some { s with fleet := s.fleet.moveTo w (.serving rest) }
          | some (m, mailbox, domain) =>
              (s.transactions.insert? ⟨w, now, m, mailbox, domain, .selected⟩).map
                fun transactions => { s with transactions := transactions }
      | _ => none
  | .gate w => (s.transactions.find? w).bind fun x =>
      match x.stage with
      | .selected => some (s.setStage w (x.readBudget D.margin s.fleet.db now later))
      | _ => none
  | .write w => (s.transactions.find? w).bind fun x =>
      if s.locked x.message.id then none else (x.firstWrite now).map (s.setStage w)
  | .commit w =>
      match s.transactions.find? w, (s.fleet.workers w).phase with
      | some x, .serving (_ :: rest) =>
          x.opening.map fun opening =>
            { fleet := { s.fleet with db := x.write s.fleet.db }.moveTo w
                (next s.fleet.db rest opening)
              transactions := s.transactions.delete fun y => y.worker = w }
      | _, _ => none

def step (s : Contended) (l : Turn) : Option Contended :=
  let now := s.fleet.clock + l.wait
  let later := now + l.lapse
  (advance D s now later l.statement).map fun t =>
    { t with fleet := { t.fleet with clock := later } }

/-- The transactions of a mailbox that have passed the gate and have not ended. -/
def inFlight (s : Contended) (mailboxId : Nat) : Nat :=
  s.transactions.count fun x => x.mailbox.id = mailboxId && x.stage.admitted

/-- The messages of a mailbox whose last attempt lies in the last hour. -/
def attempted (s : Contended) (mailboxId : Nat) : Nat :=
  s.fleet.db.messages.count (Message.counted mailboxId (s.fleet.clock - window))

theorem mem_setStage {s : Contended} {w : String} {stage : Stage} {y : Transaction} :
    y ∈ (s.setStage w stage).transactions ↔
      ∃ x ∈ s.transactions, (if x.worker = w then { x with stage := stage } else x) = y :=
  s.transactions.mem_modify w (fun x => { x with stage := stage }) fun _ => rfl

/-! What a statement can do. -/

/-- The cases of a statement. Only the gate admits a transaction, and only if it
finds room. -/
inductive Move (s : Contended) (now later : Time) : Statement → Contended → Prop
  | whole {act : Action} {fleet : Fleet} (quiet : ∀ w fails, act ≠ .deliver w fails)
      (effect : Effect D s.fleet now later act fleet) :
      Move s now later (.whole act)
        ⟨fleet, s.transactions.delete fun x => act.interrupts? = some x.worker⟩
  | gone {w : String} {phase : Phase} :
      Move s now later (.select w) { s with fleet := s.fleet.moveTo w phase }
  | selected {w : String} {m : Message} {mailbox : Mailbox} {domain : Domain}
      (row : deliveryRow s.fleet.db m.id = some (m, mailbox, domain))
      (free : s.transactions.find? w = none) :
      Move s now later (.select w) { s with
        transactions := s.transactions.insert ⟨w, now, m, mailbox, domain, .selected⟩ free }
  | staged {act : Statement} {x : Transaction} {stage : Stage}
      (found : s.transactions.find? x.worker = some x)
      (admits : stage.admitted = true → x.stage.admitted = true ∨ act = .gate x.worker ∧
        (currentBudget s.fleet.db x.mailbox D.margin now).exhausted = false) :
      Move s now later act (s.setStage x.worker stage)
  | committed {x : Transaction} {opening : Opening} {phase : Phase}
      (found : s.transactions.find? x.worker = some x) (opens : x.opening = some opening) :
      Move s now later (.commit x.worker)
        ⟨{ s.fleet with db := x.write s.fleet.db }.moveTo x.worker phase,
          s.transactions.delete fun y => y.worker = x.worker⟩

variable {D} {s t : Contended} {now later : Time} {act : Statement}

theorem admits_readBudget {x : Transaction} {margin : SafetyMargin} {db : Database}
    (h : (x.readBudget margin db now later).admitted = true) :
    (currentBudget db x.mailbox margin now).exhausted = false := by
  dsimp only [Transaction.readBudget] at h
  split at h
  · cases h
  · rename_i room
    simpa using room

theorem admits_firstWrite {x : Transaction} {stage : Stage} (h : x.firstWrite now = some stage)
    (admitted : stage.admitted = true) : x.stage.admitted = true := by
  unfold Transaction.firstWrite at h
  split at h
  · cases h
    cases admitted
  · rename_i passed
    rw [passed]
    rfl
  · cases h

theorem move_of_advance (h : advance D s now later act = some t) : Move D s now later act t := by
  cases act with
  | whole action =>
      dsimp only [advance] at h
      split at h
      · cases h
      · rename_i free
        obtain ⟨fleet, advances, rfl⟩ := Option.map_eq_some_iff.mp h
        refine .whole (fun w fails delivers => free ?_) (effect_of_advance D advances)
        rw [delivers]
        rfl
  | select w =>
      dsimp only [advance] at h
      split at h
      · split at h
        · split at h <;> cases h
          exact .gone
        · rename_i row
          obtain ⟨transactions, inserted, rfl⟩ := Option.map_eq_some_iff.mp h
          obtain ⟨free, rfl⟩ := Table.insert?_eq_some.mp inserted
          obtain rfl := Table.key_of_find? (deliveryRow_eq_some.mp row).1
          exact .selected row free
      · cases h
  | gate w =>
      obtain ⟨x, found, h⟩ := Option.bind_eq_some_iff.mp h
      obtain rfl := Table.key_of_find? found
      split at h <;> cases h
      exact .staged found fun admitted => .inr ⟨rfl, admits_readBudget admitted⟩
  | write w =>
      obtain ⟨x, found, h⟩ := Option.bind_eq_some_iff.mp h
      obtain rfl := Table.key_of_find? found
      split at h
      · cases h
      · obtain ⟨stage, writes, rfl⟩ := Option.map_eq_some_iff.mp h
        exact .staged found fun admitted => .inl (admits_firstWrite writes admitted)
  | commit w =>
      dsimp only [advance] at h
      split at h
      · rename_i found _
        obtain rfl := Table.key_of_find? found
        obtain ⟨opening, opens, rfl⟩ := Option.map_eq_some_iff.mp h
        exact .committed found opens
      · cases h

theorem move_of_step {l : Turn} (h : step D s l = some t) :
    ∃ u, Move D s (s.fleet.clock + l.wait) (s.fleet.clock + l.wait + l.lapse) l.statement u ∧
      t = { u with fleet := { u.fleet with clock := s.fleet.clock + l.wait + l.lapse } } := by
  obtain ⟨u, hu, rfl⟩ := Option.map_eq_some_iff.mp h
  exact ⟨u, move_of_advance hu, rfl⟩

/-! What stays the same under an open transaction. -/

/-- Messages stay with their mailbox, and mailboxes keep their limit. -/
structure Carries (before after : Database) : Prop where
  messages : ∀ id m, before.messages.find? id = some m →
    ∃ m', after.messages.find? id = some m' ∧ m'.mailboxId = m.mailboxId
  limits : ∀ mailbox ∈ after.mailboxes, ∃ mailbox' ∈ before.mailboxes,
    mailbox'.id = mailbox.id ∧ mailbox'.hourlyLimit = mailbox.hourlyLimit

theorem Carries.refl (db : Database) : Carries db db :=
  ⟨fun _ m found => ⟨m, found, rfl⟩, fun mailbox mem => ⟨mailbox, mem, rfl, rfl⟩⟩

theorem carries_of_effect {f g : Fleet} {action : Action} (e : Effect D f now later action g) :
    Carries f.db g.db where
  messages id m found := by
    cases e.row id with
    | same eq => exact ⟨m, eq.trans found, rfl⟩
    | changed before after change =>
        obtain rfl := Option.some.inj (before.symm.trans found)
        exact ⟨_, after, change.letter.mailboxId⟩
    | new _ before => rw [before] at found; cases found
  limits mailbox mem := e.limit mem

/-- What a transaction writes is its own row, and a new attempt only if it stamps. -/
theorem write_rewrites {x : Transaction} {opening : Opening} (opens : x.opening = some opening)
    (db : Database) : ∃ f : Message → Message, Rewrites x.message.id f db (x.write db) ∧
      ∀ m, (f m).id = m.id ∧ (f m).mailboxId = m.mailboxId ∧
        (x.stage.admitted = false → (f m).lastAttemptAt = m.lastAttemptAt) := by
  unfold Transaction.opening at opens
  unfold Transaction.write
  cases stage : x.stage with
  | held opening detail => exact ⟨_, rewrites_emit .., fun m => ⟨rfl, rfl, fun _ => rfl⟩⟩
  | undeliverable => exact ⟨_, rewrites_emit .., fun m => ⟨rfl, rfl, fun _ => rfl⟩⟩
  | stamped host stampedAt => exact ⟨_, rewrites_emit .., fun m => ⟨rfl, rfl, fun h => nomatch h⟩⟩
  | selected | full | passed => rw [stage] at opens; cases opens

theorem carries_of_rewrites {id : Nat} {f : Message → Message} {before after : Database}
    (rewrites : Rewrites id f before after) (same : ∀ m, (f m).mailboxId = m.mailboxId) :
    Carries before after where
  messages id' m found := by
    by_cases eq : id' = id
    · subst eq
      exact ⟨f m, rewrites.self found, same m⟩
    · exact ⟨m, (rewrites.other eq).trans found, rfl⟩
  limits mailbox mem := ⟨mailbox, rewrites.mailboxes ▸ mem, rfl, rfl⟩

theorem Move.carries (e : Move D s now later act t) : Carries s.fleet.db t.fleet.db := by
  cases e with
  | whole _ effect => exact carries_of_effect effect
  | committed _ opens =>
      obtain ⟨f, rewrites, keeps⟩ := write_rewrites opens s.fleet.db
      exact carries_of_rewrites rewrites fun m => (keeps m).2.1
  | _ => exact .refl _

/-- The message of a transaction is stored under its mailbox, whose limit is the
one the transaction has read. -/
structure Anchored (db : Database) (x : Transaction) : Prop where
  stored : ∃ m, db.messages.find? x.message.id = some m ∧ m.mailboxId = x.mailbox.id
  limit : ∀ mailbox ∈ db.mailboxes, mailbox.id = x.mailbox.id →
    mailbox.hourlyLimit = x.mailbox.hourlyLimit

theorem Anchored.carry {before after : Database} (carries : Carries before after)
    {x : Transaction} (h : Anchored before x) : Anchored after x := by
  obtain ⟨⟨m, found, box⟩, limit⟩ := h
  obtain ⟨m', found', same⟩ := carries.messages _ _ found
  refine ⟨⟨m', found', same.trans box⟩, fun mailbox mem id => ?_⟩
  obtain ⟨mailbox', mem', id', limit'⟩ := carries.limits mailbox mem
  exact limit'.symm.trans (limit mailbox' mem' (id'.trans id))

/-- An open transaction was open before, perhaps at another stage, or has just
selected its rows. -/
theorem Move.transaction (e : Move D s now later act t) {x : Transaction}
    (mem : x ∈ t.transactions) :
    (∃ y ∈ s.transactions, x.message = y.message ∧ x.mailbox = y.mailbox) ∨
      deliveryRow s.fleet.db x.message.id = some (x.message, x.mailbox, x.domain) := by
  cases e with
  | whole => exact .inl ⟨x, (Table.mem_delete.mp mem).1, rfl, rfl⟩
  | gone => exact .inl ⟨x, mem, rfl, rfl⟩
  | committed => exact .inl ⟨x, (Table.mem_delete.mp mem).1, rfl, rfl⟩
  | selected row free =>
      dsimp only at mem
      rcases Table.mem_insert.mp mem with old | rfl
      · exact .inl ⟨x, old, rfl, rfl⟩
      · exact .inr row
  | staged found admits =>
      obtain ⟨y, old, rfl⟩ := mem_setStage.mp mem
      refine .inl ⟨y, old, ?_⟩
      split <;> exact ⟨rfl, rfl⟩

theorem Move.anchored (e : Move D s now later act t)
    (h : ∀ x ∈ s.transactions, Anchored s.fleet.db x) :
    ∀ x ∈ t.transactions, Anchored t.fleet.db x := by
  intro x mem
  rcases e.transaction mem with ⟨y, old, message, mailbox⟩ | row
  · obtain ⟨stored, limit⟩ := (h y old).carry e.carries
    exact ⟨message ▸ mailbox ▸ stored, mailbox ▸ limit⟩
  · obtain ⟨found, box, _⟩ := deliveryRow_eq_some.mp row
    refine Anchored.carry e.carries ⟨⟨_, found, (Table.key_of_find? box).symm⟩, ?_⟩
    intro mailbox mem id
    rw [Table.eq_of_key_eq mem (Table.mem_of_find? box) id]

/-! The room that is left. -/

theorem counted_mono {m : Message} {mailboxId : Nat} {cutoff cutoff' : Time}
    (le : cutoff ≤ cutoff') (h : m.counted mailboxId cutoff' = true) :
    m.counted mailboxId cutoff = true := by
  obtain ⟨mine, last, column, recent⟩ := Message.counted_iff.mp h
  exact Message.counted_iff.mpr ⟨mine, last, column, le.trans recent⟩

theorem counted_congr {m m' : Message} {mailboxId : Nat} {cutoff : Time}
    (box : m'.mailboxId = m.mailboxId) (column : m'.lastAttemptAt = m.lastAttemptAt) :
    m'.counted mailboxId cutoff = m.counted mailboxId cutoff := by
  simp only [Message.counted, box, column]

/-- Only deliveries stamp attempts. -/
theorem count_effect {f g : Fleet} {action : Action} (e : Effect D f now later action g)
    (quiet : ∀ w fails, action ≠ .deliver w fails) (mailboxId : Nat) {cutoff cutoff' : Time}
    (le : cutoff ≤ cutoff') : g.db.messages.count (Message.counted mailboxId cutoff') ≤
      f.db.messages.count (Message.counted mailboxId cutoff) := by
  refine Table.count_le_count fun m mem counted => ?_
  have counted := counted_mono le counted
  have found := Table.find?_of_mem mem
  cases e.row m.id with
  | same eq => exact ⟨m, Table.mem_of_find? (eq ▸ found), rfl, counted⟩
  | @changed m₀ _ before after change =>
      obtain rfl := Option.some.inj (after.symm.trans found)
      refine ⟨m₀, Table.mem_of_find? before, Table.key_of_find? before, ?_⟩
      rwa [← counted_congr change.letter.mailboxId (change.lastAttempt_of_quiet quiet)]
  | new _ _ after stored =>
      obtain rfl := Option.some.inj (after.symm.trans found)
      obtain ⟨_, _, column, _⟩ := stored.fresh
      simp [Message.counted, column] at counted

/-- A rewrite adds at most its own row to the count, and not even that if it
leaves the column alone or the row belongs to another mailbox. -/
theorem count_rewrites {id : Nat} {f : Message → Message} {before after : Database}
    (rewrites : Rewrites id f before after)
    (keeps : ∀ m, (f m).id = m.id ∧ (f m).mailboxId = m.mailboxId) (mailboxId : Nat)
    {cutoff cutoff' : Time} (le : cutoff ≤ cutoff') :
    after.messages.count (Message.counted mailboxId cutoff') ≤
        before.messages.count (Message.counted mailboxId cutoff) + 1 ∧
      ((∀ m, before.messages.find? id = some m → m.mailboxId = mailboxId →
          (f m).lastAttemptAt = m.lastAttemptAt) →
        after.messages.count (Message.counted mailboxId cutoff') ≤
          before.messages.count (Message.counted mailboxId cutoff)) := by
  have others : ∀ m ∈ after.messages, m.counted mailboxId cutoff' = true → m.id ≠ id →
      ∃ b ∈ before.messages, b.id = m.id ∧ b.counted mailboxId cutoff = true := by
    intro m mem counted other
    have found := (rewrites.other other).symm.trans (Table.find?_of_mem mem)
    exact ⟨m, Table.mem_of_find? found, rfl, counted_mono le counted⟩
  refine ⟨Table.count_le_succ id others, fun column => ?_⟩
  refine Table.count_le_count fun m mem counted => ?_
  by_cases own : m.id = id
  · subst own
    have found := Table.find?_of_mem mem
    rw [rewrites.messages, if_pos rfl] at found
    obtain ⟨m₀, before, rfl⟩ := Option.map_eq_some_iff.mp found
    have counted := counted_mono le counted
    have mine := (keeps m₀).2.symm.trans (Message.counted_iff.mp counted).1
    refine ⟨m₀, Table.mem_of_find? before, (keeps m₀).1.symm, ?_⟩
    rwa [← counted_congr (keeps m₀).2 (column m₀ before mine)]
  · exact others m mem counted own

theorem inFlight_setStage (s : Contended) (w : String) (stage : Stage) (mailboxId : Nat) :
    (s.setStage w stage).inFlight mailboxId ≤ s.inFlight mailboxId + 1 := by
  refine Table.count_le_succ w fun y mem counts other => ?_
  obtain ⟨x, old, rfl⟩ := mem_setStage.mp mem
  by_cases own : x.worker = w
  · rw [if_pos own] at other
    exact absurd own other
  · rw [if_neg own] at counts ⊢
    exact ⟨x, old, rfl, counts⟩

/-- A stage that admits nobody new takes no room. -/
theorem inFlight_setStage_le {x : Transaction} {stage : Stage} {mailboxId : Nat}
    (found : s.transactions.find? x.worker = some x)
    (kept : stage.admitted = true → x.mailbox.id = mailboxId → x.stage.admitted = true) :
    (s.setStage x.worker stage).inFlight mailboxId ≤ s.inFlight mailboxId := by
  refine Table.count_le_count fun y mem counts => ?_
  obtain ⟨y, old, rfl⟩ := mem_setStage.mp mem
  refine ⟨y, old, by split <;> rfl, ?_⟩
  split at counts
  · rename_i own
    obtain rfl := Table.eq_of_key_eq old (Table.mem_of_find? found) own
    simp only [Bool.and_eq_true, decide_eq_true_eq] at counts ⊢
    exact ⟨counts.1, kept counts.2 counts.1⟩
  · exact counts

theorem inFlight_delete (s : Contended) (fleet : Fleet) (p : Transaction → Bool)
    (mailboxId : Nat) :
    inFlight ⟨fleet, s.transactions.delete p⟩ mailboxId ≤ s.inFlight mailboxId :=
  Table.count_le_count fun x mem counts => ⟨x, (Table.mem_delete.mp mem).1, rfl, counts⟩

/-- The end of a transaction that has passed the gate gives its room back. -/
theorem inFlight_end {x : Transaction} (found : s.transactions.find? x.worker = some x)
    (admitted : x.stage.admitted = true) (fleet : Fleet) :
    inFlight ⟨fleet, s.transactions.delete fun y => y.worker = x.worker⟩ x.mailbox.id <
      s.inFlight x.mailbox.id := by
  refine Table.count_lt_count (Table.mem_of_find? found) (by simp [admitted]) ?_
  intro y mem counts
  obtain ⟨old, other⟩ := Table.mem_delete.mp mem
  exact ⟨of_decide_eq_false other, y, old, rfl, counts⟩

/-- If a passing gate leaves room for the transactions that are under way, what
is counted and what is under way stay within the limit together. -/
theorem Move.room (e : Move D s now later act t)
    (anchored : ∀ x ∈ s.transactions, Anchored s.fleet.db x) {mailboxId limit : Nat}
    {cutoff cutoff' : Time} (le : cutoff ≤ cutoff')
    (room : s.fleet.db.messages.count (Message.counted mailboxId cutoff) +
      s.inFlight mailboxId ≤ limit)
    (passes : ∀ x, s.transactions.find? x.worker = some x → act = .gate x.worker →
      x.mailbox.id = mailboxId →
      (currentBudget s.fleet.db x.mailbox D.margin now).exhausted = false →
      s.fleet.db.messages.count (Message.counted mailboxId cutoff') + s.inFlight mailboxId <
        limit) :
    t.fleet.db.messages.count (Message.counted mailboxId cutoff') + t.inFlight mailboxId ≤
      limit := by
  have aging : s.fleet.db.messages.count (Message.counted mailboxId cutoff') ≤
      s.fleet.db.messages.count (Message.counted mailboxId cutoff) :=
    Table.count_le_count fun m mem counts => ⟨m, mem, rfl, counted_mono le counts⟩
  cases e with
  | whole quiet effect =>
      exact (Nat.add_le_add (count_effect effect quiet mailboxId le)
        (inFlight_delete ..)).trans room
  | gone => exact (Nat.add_le_add_right aging _).trans room
  | selected row free =>
      refine (Nat.add_le_add aging (Table.count_le_count fun x mem counts => ?_)).trans room
      dsimp only at mem
      rcases Table.mem_insert.mp mem with old | rfl
      · exact ⟨x, old, rfl, counts⟩
      · simp [Stage.admitted] at counts
  | @staged _ x stage found admits =>
      by_cases kept : stage.admitted = true → x.mailbox.id = mailboxId → x.stage.admitted = true
      · exact (Nat.add_le_add aging (inFlight_setStage_le found kept)).trans room
      · push Not at kept
        obtain ⟨admitted, box, fresh⟩ := kept
        rcases admits admitted with old | ⟨gate, hasRoom⟩
        · exact absurd old fresh
        · exact (Nat.add_le_add_left (inFlight_setStage ..) _).trans
            (passes x found gate box hasRoom)
  | @committed x opening phase found opens =>
      obtain ⟨f, rewrites, keeps⟩ := write_rewrites opens s.fleet.db
      obtain ⟨more, same⟩ := count_rewrites rewrites
        (fun m => ⟨(keeps m).1, (keeps m).2.1⟩) mailboxId le
      by_cases stamps : x.stage.admitted = true ∧ x.mailbox.id = mailboxId
      · obtain ⟨admitted, rfl⟩ := stamps
        have ends := inFlight_end found admitted
          ({ s.fleet with db := x.write s.fleet.db }.moveTo x.worker phase)
        exact (Nat.add_le_add_right more _).trans (by omega)
      · refine (Nat.add_le_add (same fun m stored mine => ?_) (inFlight_delete ..)).trans room
        refine (keeps m).2.2 (Bool.eq_false_iff.mpr fun admitted => stamps ⟨admitted, ?_⟩)
        obtain ⟨⟨m', stored', box⟩, _⟩ := anchored x (Table.mem_of_find? found)
        obtain rfl := Option.some.inj (stored'.symm.trans stored)
        exact box.symm.trans mine

/-! The law. -/

variable (D) in
/-- Whenever a transaction passes the gate, what it has counted leaves room for
it and for all others of its mailbox that have passed and have not ended. -/
def RoomForAll (s : Contended) (l : Turn) : Prop :=
  ∀ w x, l.statement = .gate w → s.transactions.find? w = some x →
    (currentBudget s.fleet.db x.mailbox D.margin (s.fleet.clock + l.wait)).exhausted = false →
    (currentBudget s.fleet.db x.mailbox D.margin (s.fleet.clock + l.wait)).used +
      s.inFlight x.mailbox.id < ceiling D.margin x.mailbox

/-- It does where no two transactions of a mailbox are past the gate at a time. -/
theorem roomForAll_of_alone {l : Turn} (alone : ∀ w x, l.statement = .gate w →
    s.transactions.find? w = some x → s.inFlight x.mailbox.id = 0) : RoomForAll D s l := by
  intro w x gate found hasRoom
  rw [alone w x gate found]
  exact currentBudget_open_iff.mp hasRoom

variable (D) in
structure Shared (s : Contended) : Prop where
  anchored : ∀ x ∈ s.transactions, Anchored s.fleet.db x
  room : ∀ mailbox ∈ s.fleet.db.mailboxes,
    s.attempted mailbox.id + s.inFlight mailbox.id ≤ ceiling D.margin mailbox

theorem shared_initial (start : s.fleet.Initial) (idle : s.transactions.rows = []) :
    Shared D s where
  anchored x mem := by
    rw [Table.mem_def, idle] at mem
    cases mem
  room mailbox _ := by
    have untried : s.attempted mailbox.id = 0 := by
      refine List.countP_eq_zero.mpr fun m mem => ?_
      have found := Table.find?_of_mem mem
      rw [start.messages] at found
      cases found
    rw [untried, inFlight, Table.count, idle]
    exact Nat.zero_le _

theorem step_shared {l : Turn} (h : step D s l = some t) (room : RoomForAll D s l)
    (shared : Shared D s) : Shared D t := by
  obtain ⟨u, e, rfl⟩ := move_of_step h
  refine ⟨e.anchored shared.anchored, fun mailbox mem => ?_⟩
  obtain ⟨before, there, id, limit⟩ := e.carries.limits mailbox mem
  have onward : s.fleet.clock ≤ s.fleet.clock + l.wait :=
    Int.le_add_of_nonneg_right (Int.natCast_nonneg _)
  have further : s.fleet.clock + l.wait ≤ s.fleet.clock + l.wait + l.lapse :=
    Int.le_add_of_nonneg_right (Int.natCast_nonneg _)
  rw [← ceiling_congr limit, ← id]
  refine e.room shared.anchored (Int.sub_le_sub_right (onward.trans further) window)
    (shared.room before there) fun x found gate box hasRoom => ?_
  have left := room x.worker x gate found hasRoom
  rw [ceiling_congr ((shared.anchored x (Table.mem_of_find? found)).limit before there box.symm),
    ← box]
  refine (Nat.add_le_add_right (Table.count_le_count fun m mem counts => ?_) _).trans_lt left
  exact ⟨m, mem, rfl, counted_mono (Int.sub_le_sub_right further window) counts⟩

/-- In every run of any number of workers whose first transactions interleave: if
every gate leaves room for the transactions under way, the messages of a mailbox
attempted in the last hour are never more than its ceiling. -/
theorem budget_is_shared (start : s.fleet.Initial) (idle : s.transactions.rows = [])
    (run : Reaches (step D) (RoomForAll D) s t) {mailbox : Mailbox}
    (mem : mailbox ∈ t.fleet.db.mailboxes) :
    t.attempted mailbox.id ≤ ceiling D.margin mailbox := by
  have shared : Shared D t := run.invariant (shared_initial start idle)
    fun _ _ _ room h shared => step_shared h room shared
  exact (Nat.le_add_right _ _).trans (shared.room mailbox mem)

/-! A transaction that meets no other. -/

/-- One transaction is open. -/
def alone (f : Fleet) (x : Transaction) : Contended := ⟨f, Table.empty.insert x rfl⟩

section Alone
variable (f : Fleet) (x : Transaction)

theorem alone_find? : (alone f x).transactions.find? x.worker = some x :=
  Table.find?_of_mem (List.mem_singleton_self x)

theorem alone_setStage (stage : Stage) :
    (alone f x).setStage x.worker stage = alone f { x with stage := stage } := by
  simp [alone, setStage, Table.modify, Table.update, Table.insert, Table.empty]

theorem alone_locked (id : Nat) (h : x.opening = none) : (alone f x).locked id = false := by
  simp [alone, locked, Table.insert, Table.empty, h]

theorem alone_delete :
    (alone f x).transactions.delete (fun y => y.worker = x.worker) = Table.empty := by
  simp [alone, Table.delete, Table.insert, Table.empty]

theorem step_select {w : String} {id wait : Nat} {rest : List Nat} {m : Message}
    {mailbox : Mailbox} {domain : Domain} (turn : f.workers w = ⟨.serving (id :: rest), false⟩)
    (row : deliveryRow f.db id = some (m, mailbox, domain)) :
    step D ⟨f, Table.empty⟩ ⟨wait, 0, .select w⟩ = some (alone
      { f with clock := f.clock + wait } ⟨w, f.clock + wait, m, mailbox, domain, .selected⟩) := by
  simp [step, advance, turn, row, alone, Table.insert?]

theorem step_gate (lapse : Nat) (selected : x.stage = .selected) :
    step D (alone f x) ⟨0, lapse, .gate x.worker⟩ = some (alone { f with clock := f.clock + lapse }
      { x with stage := x.readBudget D.margin f.db f.clock (f.clock + lapse) }) := by
  simp only [step, advance, alone_find?, Option.bind_some, selected, alone_setStage,
    Option.map_some]
  simp [alone]

theorem unwritten_of_firstWrite {x : Transaction} {stage : Stage}
    (h : x.firstWrite now = some stage) : x.opening = none := by
  unfold Transaction.firstWrite at h
  unfold Transaction.opening
  cases stage : x.stage with
  | selected | full | passed => rfl
  | held | undeliverable | stamped => rw [stage] at h; cases h

theorem step_write {stage : Stage} (writes : x.firstWrite f.clock = some stage) :
    step D (alone f x) ⟨0, 0, .write x.worker⟩ = some (alone f { x with stage := stage }) := by
  have now : (alone f x).fleet.clock + ((0 : Nat) : Int) = f.clock := Int.add_zero _
  have free := alone_locked f x x.message.id (unwritten_of_firstWrite writes)
  simp only [step, advance, alone_find?, Option.bind_some, free, now, writes, alone_setStage,
    Option.map_some]
  simp [alone]

theorem step_commit {id : Nat} {rest : List Nat} {opening : Opening}
    (turn : (f.workers x.worker).phase = .serving (id :: rest))
    (opens : x.opening = some opening) :
    step D (alone f x) ⟨0, 0, .commit x.worker⟩ = some ⟨{ f with db := x.write f.db }.moveTo
      x.worker (next f.db rest opening), Table.empty⟩ := by
  have phase : ((alone f x).fleet.workers x.worker).phase = .serving (id :: rest) := turn
  simp only [step, advance, alone_find?, phase, opens, alone_delete, Option.map_some]
  simp [alone, Fleet.moveTo, Fleet.setProcess]

end Alone

/-- The four statements, one after the other. -/
theorem execute_delivery {f : Fleet} {w : String} {id : Nat} {rest : List Nat} {m : Message}
    {mailbox : Mailbox} {domain : Domain} (wait lapse : Nat) {decided written : Stage}
    {opening : Opening} (turn : f.workers w = ⟨.serving (id :: rest), false⟩)
    (row : deliveryRow f.db id = some (m, mailbox, domain))
    (reads : (Transaction.mk w (f.clock + wait) m mailbox domain .selected).readBudget D.margin
      f.db (f.clock + wait) (f.clock + wait + lapse) = decided)
    (writes : (Transaction.mk w (f.clock + wait) m mailbox domain decided).firstWrite
      (f.clock + wait + lapse) = some written)
    (opens : (Transaction.mk w (f.clock + wait) m mailbox domain written).opening =
      some opening) :
    execute (step D) ⟨f, Table.empty⟩ [⟨wait, 0, .select w⟩, ⟨0, lapse, .gate w⟩,
        ⟨0, 0, .write w⟩, ⟨0, 0, .commit w⟩] =
      some ⟨{ f with
          db := (Transaction.mk w (f.clock + wait) m mailbox domain written).write f.db
          clock := f.clock + wait + lapse }.moveTo w (next f.db rest opening), Table.empty⟩ := by
  simp only [execute, step_select f turn row, Option.bind_some]
  rw [step_gate _ ⟨w, f.clock + wait, m, mailbox, domain, .selected⟩ lapse rfl]
  simp only [reads, Option.bind_some]
  rw [step_write _ ⟨w, f.clock + wait, m, mailbox, domain, decided⟩ writes]
  simp only [Option.bind_some]
  rw [step_commit { f with clock := f.clock + wait + lapse }
    ⟨w, f.clock + wait, m, mailbox, domain, written⟩ (congrArg Process.phase turn) opens]
  rfl

/-- On the row that was selected, the stamp is that of `Message.stamp`. -/
theorem stampAs_eq {db : Database} {id : Nat} {m : Message} (found : db.messages.find? id = some m)
    (now : Time) : db.setMessage m.id (Message.stampAs now (m.attempts + 1)) =
      db.setMessage m.id (Message.stamp now) := by
  obtain rfl := Table.key_of_find? found
  refine Database.setMessage_congr fun a mem same => ?_
  rw [Table.eq_of_key_eq mem (Table.mem_of_find? found) same]
  rfl

/-- A first transaction whose statements are not interrupted is the step of the fleet. -/
theorem deliver_of_alone {f g : Fleet} {w : String} {wait lapse : Nat}
    (h : Fleet.step D f ⟨wait, lapse, .deliver w false⟩ = some g) :
    ∃ turns, execute (step D) ⟨f, Table.empty⟩ turns = some ⟨g, Table.empty⟩ := by
  obtain ⟨u, delivers, rfl⟩ := Option.map_eq_some_iff.mp h
  dsimp only [Fleet.advance] at delivers
  split at delivers
  · rename_i id rest turn
    cases delivers
    unfold Fleet.deliver openDelivery
    cases row : deliveryRow f.db id with
    | none =>
        refine ⟨[⟨wait, lapse, .select w⟩], ?_⟩
        simp [execute, step, advance, turn, row, next]
    | some found =>
        obtain ⟨m, mailbox, domain⟩ := found
        dsimp only
        by_cases full : (currentBudget f.db mailbox D.margin (f.clock + wait)).exhausted = true
        · refine ⟨_, (execute_delivery wait lapse turn row (if_pos full) rfl rfl).trans ?_⟩
          rw [if_pos full]
          rfl
        · rw [if_neg full]
          cases known : domain.smtpHost with
          | none =>
              have writes : (Transaction.mk w (f.clock + wait) m mailbox domain .passed).firstWrite
                  (f.clock + wait + lapse) = some .undeliverable := by
                simp [Transaction.firstWrite, known]
              exact ⟨_, execute_delivery wait lapse turn row (if_neg full) writes rfl⟩
          | some host =>
              have writes : (Transaction.mk w (f.clock + wait) m mailbox domain .passed).firstWrite
                  (f.clock + wait + lapse) = some (.stamped host (f.clock + wait + lapse)) := by
                simp [Transaction.firstWrite, known]
              refine ⟨_, (execute_delivery wait lapse turn row (if_neg full) writes rfl).trans ?_⟩
              simp only [Transaction.write, stampAs_eq (deliveryRow_eq_some.mp row).1]
              rfl
  · cases delivers

end Contended
/-! A mailbox that may send once an hour, and two workers with a letter each. -/
namespace Sample

def narrowMailbox : Mailbox :=
  { id := 1, domainId := 1, address := "noreply@shop.example", passwordEncrypted := ""
    displayName := none, hourlyLimit := 1, active := true, hourlyLimitPositive := Nat.one_pos }

def site : Contended := ⟨fleet narrowMailbox, Table.empty⟩

def statement (statement : Statement) : Turn := ⟨0, 0, statement⟩

def whole (l : Label) : Turn := ⟨l.wait, l.lapse, .whole l.action⟩

/-- A letter is accepted and claimed, and its row selected. -/
def selecting (w : String) (id : Nat) (recipient : String) : List Turn :=
  [whole (accept narrowMailbox id recipient []), whole (now (.start w)),
    whole (claimBy w [id]), statement (.select w)]

def stamping (w : String) : List Turn := [statement (.write w), statement (.commit w)]

def racing : List Turn :=
  selecting "A" 1 "ann@example.net" ++ selecting "B" 2 "bob@example.net" ++
    [statement (.gate "A"), statement (.gate "B")] ++ stamping "A" ++ stamping "B"

def raced : Contended := final (Contended.step deployment) site racing

def atGate : Contended := final (Contended.step deployment) site (selecting "A" 1 "ann@example.net")

def passing : List Turn := statement (.gate "A") :: stamping "A"

def stampedOnce : Contended := final (Contended.step deployment) atGate passing

/-- The mailboxes, and the attempts of the last hour. -/
def tally (s : Contended) : List Mailbox × Nat := (s.fleet.db.mailboxes.rows, s.attempted 1)

theorem mem_of_tally {s : Contended} {count : Nat} (h : tally s = ([narrowMailbox], count)) :
    narrowMailbox ∈ s.fleet.db.mailboxes ∧ s.attempted narrowMailbox.id = count := by
  obtain ⟨rows, count⟩ := Prod.mk.inj h
  exact ⟨Table.mem_def.mpr (rows ▸ List.mem_singleton_self _), count⟩

end Sample

/-- Both workers count no attempt, and both stamp one, where the ceiling is one. -/
theorem two_workers_pass_the_gate :
    Reaches (Contended.step Sample.deployment) Any Sample.site Sample.raced ∧
    Sample.narrowMailbox ∈ Sample.raced.fleet.db.mailboxes ∧
    ceiling Sample.deployment.margin Sample.narrowMailbox <
      Sample.raced.attempted Sample.narrowMailbox.id := by
  have races : (execute (Contended.step Sample.deployment) Sample.site Sample.racing).map
      Sample.tally = some ([Sample.narrowMailbox], 2) := by decide +kernel
  obtain ⟨run, seen⟩ : Reaches (Contended.step Sample.deployment) Any _ Sample.raced ∧ _ :=
    reaches_final _ races fun _ _ _ => trivial
  obtain ⟨mem, count⟩ := Sample.mem_of_tally seen
  have above : ceiling Sample.deployment.margin Sample.narrowMailbox < 2 := by decide
  exact ⟨run, mem, Nat.lt_of_lt_of_eq above count.symm⟩

theorem stampedOnce_shares_budget :
    Sample.narrowMailbox ∈ Sample.stampedOnce.fleet.db.mailboxes ∧
    Sample.stampedOnce.attempted Sample.narrowMailbox.id = 1 ∧
    Sample.stampedOnce.attempted Sample.narrowMailbox.id ≤
      ceiling Sample.deployment.margin Sample.narrowMailbox := by
  let allowed := Contended.RoomForAll Sample.deployment
  have selects : (execute (Contended.step Sample.deployment) Sample.site
      (Sample.selecting "A" 1 "ann@example.net")).map (fun s => s.transactions.rows.all fun x =>
        !x.stage.admitted) = some true := by decide +kernel
  have passes : (execute (Contended.step Sample.deployment) Sample.atGate Sample.passing).map
      Sample.tally = some ([Sample.narrowMailbox], 1) := by decide +kernel
  obtain ⟨first, waiting⟩ :
    Reaches (Contended.step Sample.deployment) allowed _ Sample.atGate ∧ _ :=
    reaches_final _ selects (by simp [allowed, Contended.RoomForAll, Sample.selecting,
      Sample.whole, Sample.statement])
  have idle : ∀ mailboxId, Sample.atGate.inFlight mailboxId = 0 := by
    intro mailboxId
    refine List.countP_eq_zero.mpr fun x mem => ?_
    have outside := List.all_eq_true.mp waiting x mem
    simp only [Bool.not_eq_true'] at outside
    simp [outside]
  obtain ⟨second, seen⟩ : Reaches (Contended.step Sample.deployment) allowed _
      Sample.stampedOnce ∧ _ :=
    reaches_final_cons _ passes (Contended.roomForAll_of_alone fun _ _ _ _ => idle _)
      (by simp [allowed, Contended.RoomForAll, Sample.stamping, Sample.statement])
  obtain ⟨mem, count⟩ := Sample.mem_of_tally seen
  exact ⟨mem, count, Contended.budget_is_shared (Sample.fleet_initial _) rfl
    (first.trans second) mem⟩

end Emaild
