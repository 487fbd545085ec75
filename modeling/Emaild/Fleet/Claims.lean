import Emaild.Fleet.Steps

/-!
Claims whose transactions overlap. In `Fleet` a claim is one step; here its
statements are, as READ COMMITTED lets them interleave. The rows of a snapshot are
tried one after the other: a row that another open claim has locked is skipped, and
a row that has changed since is looked at again before it is locked. What is locked
is changed by nobody else until the transaction ends.
-/
namespace Emaild
open Relational Transition Fleet

inductive ClaimStage
  | begun
  /-- The rows of the snapshot that are still to be tried. -/
  | scanning (candidates : List Nat)
  | selected
  | updated

/-- An open `claim_messages` transaction. -/
structure Claim where
  worker : String
  limit : Nat
  now : Time
  stage : ClaimStage
  locked : List Nat

/-- What a committed claim has returned, as far as it is still out. -/
structure Grant where
  worker : String
  ids : List Nat

/-- What of a grant is still in flight. -/
def Grant.keep (db : Database) (g : Grant) : Grant :=
  { g with ids := g.ids.filter fun id => (db.messages.find? id).any (·.status = .sending) }

structure Claiming where
  fleet : Fleet
  claims : Table Claim.worker
  grants : List Grant

/-- The statements of a claim, the locking of a row one of them. -/
inductive ClaimStep
  | scan (order : List Nat)
  | lockNext
  | update
  | commit (order : List Nat)
  | rollback

inductive ClaimStatement
  /-- A step of the fleet that is no claim. -/
  | whole (action : Action)
  | begin (w : String) (limit : Nat)
  | next (w : String) (statement : ClaimStep)

/-- A statement, and the microseconds that pass before each of its clock readings. -/
structure ClaimTurn where
  wait : Nat
  lapse : Nat
  statement : ClaimStatement

/-- The snapshot of the claim query, in the order in which its rows are tried. -/
def Snapshot (db : Database) (now : Time) (order : List Nat) : Prop :=
  order.Perm ((db.messages.rows.filter (·.due now)).map Message.id) ∧
    (order.filterMap fun id => db.messages.find? id).Pairwise fun a b =>
      a.nextAttemptAt.getD 0 ≤ b.nextAttemptAt.getD 0

instance (db : Database) (now : Time) (order : List Nat) : Decidable (Snapshot db now order) :=
  inferInstanceAs (Decidable (_ ∧ _))

def Action.isClaim : Action → Bool
  | .claim _ _ _ => true
  | _ => false

/-- A message is released, its outcome is recorded, or it is reaped. A delivery that the
rate gate holds or that has no host to go to is recorded by its first transaction. -/
def Action.LetsGo : Action → Prop
  | .release _ | .deliver _ _ | .record _ _ _ _ _ | .reap _ => True
  | _ => False

namespace Claiming
variable (D : Deployment)

/-- Another open claim has locked the row. -/
def taken (s : Claiming) (w : String) (id : Nat) : Bool :=
  s.claims.rows.any fun c => c.worker ≠ w && id ∈ c.locked

/-- A step that would change a row that is locked has to wait. -/
def waits (s : Claiming) (t : Fleet) : Bool :=
  s.claims.rows.any fun c => c.locked.any fun id =>
    t.db.messages.find? id ≠ s.fleet.db.messages.find? id

/-- The row as it is committed now still passes the test of the query. -/
def stillDue (s : Claiming) (now : Time) (id : Nat) : Bool :=
  (s.fleet.db.messages.find? id).any (·.due now)

def proceed (s : Claiming) (w : String) (stage : ClaimStage) (more : List Nat) : Claiming :=
  { s with claims := s.claims.modify w fun c =>
      { c with stage := stage, locked := c.locked ++ more } }

def close (s : Claiming) (w : String) : Claiming :=
  { s with claims := s.claims.delete fun c => c.worker = w }

/-- The next row of the snapshot, while there is room. -/
def lockNext (s : Claiming) (c : Claim) : List Nat → Claiming
  | [] => s.proceed c.worker .selected []
  | id :: rest =>
      if c.limit ≤ c.locked.length then s.proceed c.worker .selected []
      else if s.taken c.worker id || !s.stillDue c.now id then
        s.proceed c.worker (.scanning rest) []
      else s.proceed c.worker (.scanning rest) [id]

/-- The commit. The rows come back in an order of the database's choice. -/
def settle (s : Claiming) (c : Claim) (order : List Nat) : Claiming where
  fleet := { s.fleet with
    db := s.fleet.db.updateMessages (fun m => m.id ∈ c.locked) (Message.claim c.worker c.now)
    }.moveTo c.worker (.serving order)
  claims := s.claims.delete fun d => d.worker = c.worker
  grants := s.grants ++ [⟨c.worker, order⟩]

/-- The next statement of a claim, if it is the one that is asked for. Without a row
`claim_messages` returns before the update. -/
def serve (s : Claiming) (c : Claim) : ClaimStep → Option Claiming
  | .scan order =>
      match c.stage with
      | .begun =>
          if Snapshot s.fleet.db c.now order then some (s.proceed c.worker (.scanning order) [])
          else none
      | _ => none
  | .lockNext =>
      match c.stage with
      | .scanning candidates => some (s.lockNext c candidates)
      | _ => none
  | .update =>
      match c.stage, c.locked with
      | .selected, _ :: _ => some (s.proceed c.worker .updated [])
      | _, _ => none
  | .commit order =>
      match c.stage, c.locked with
      | .updated, _ | .selected, [] =>
          if order.Perm c.locked then some (s.settle c order) else none
      | _, _ => none
  | .rollback => some (s.close c.worker)

def advance (s : Claiming) (now later : Time) : ClaimStatement → Option Claiming
  | .whole action =>
      if action.isClaim || action.worker?.any fun w => (s.claims.find? w).isSome then none
      else (Fleet.advance D s.fleet now later action).bind fun t =>
        if s.waits t then none
        else some ⟨t, s.claims.delete fun c => action.interrupts? = some c.worker,
          s.grants.map (Grant.keep t.db)⟩
  | .begin w limit =>
      match (s.fleet.workers w).phase with
      | .serving [] => (s.claims.insert? ⟨w, limit, now, .begun, []⟩).map fun claims =>
          { s with claims := claims }
      | _ => none
  | .next w statement => (s.claims.find? w).bind fun c => s.serve c statement

def step (s : Claiming) (l : ClaimTurn) : Option Claiming :=
  let now := s.fleet.clock + l.wait
  let later := now + l.lapse
  (advance D s now later l.statement).map fun t =>
    { t with fleet := { t.fleet with clock := later } }

/-- No claim is open, and none has been committed yet. -/
structure Idle (s : Claiming) : Prop where
  claims : s.claims = Table.empty
  grants : s.grants = []

/-- The open and the committed claims that a message is in. -/
def holders (s : Claiming) (id : Nat) : Nat :=
  s.claims.rows.countP (fun c => id ∈ c.locked) + s.grants.countP fun g => id ∈ g.ids

end Claiming

section Sorting
variable {α : Type} {r : α → α → Prop} [DecidableRel r] [IsTrans α r] (p : α → Bool)

theorem filter_orderedInsert (a : α) {l : List α} (sorted : l.Pairwise r) :
    (l.orderedInsert r a).filter p =
      if p a then (l.filter p).orderedInsert r a else l.filter p := by
  induction l with
  | nil => by_cases h : p a <;> simp [h]
  | cons b l ih =>
      obtain ⟨least, sorted⟩ := List.pairwise_cons.mp sorted
      by_cases le : r a b
      · have before : (l.filter p).orderedInsert r a = a :: l.filter p := by
          cases rest : l.filter p with
          | nil => rfl
          | cons c cs =>
              have mem : c ∈ l.filter p := rest ▸ List.mem_cons_self
              exact List.orderedInsert_cons_of_le r cs
                (IsTrans.trans _ _ _ le (least c (List.mem_filter.mp mem).1))
        by_cases hb : p b <;> by_cases ha : p a <;> simp [le, ha, hb, before]
      · by_cases hb : p b <;> by_cases ha : p a <;> simp [le, ha, hb, ih sorted]

theorem filter_insertionSort [Std.Total r] (l : List α) :
    (l.insertionSort r).filter p = (l.filter p).insertionSort r := by
  induction l with
  | nil => rfl
  | cons a l ih =>
      rw [List.insertionSort_cons, filter_orderedInsert p a (List.pairwise_insertionSort r l), ih]
      by_cases h : p a <;> simp [h]
end Sorting

/-- The rows that a claim has locked, and those that it will try. -/
def Claim.rows (c : Claim) : List Nat :=
  c.locked ++ match c.stage with
    | .scanning candidates => candidates
    | _ => []

namespace Claiming
variable {D : Deployment} {s t : Claiming} {c : Claim} {id : Nat}

/-- Locked rows are due and in one transaction, granted ones in flight and in one
grant. -/
structure Exclusive (s : Claiming) : Prop where
  begun : ∀ c ∈ s.claims, c.stage = .begun → c.locked = []
  due : ∀ c ∈ s.claims, ∀ id ∈ c.locked, s.stillDue c.now id = true
  nodup : ∀ c ∈ s.claims, c.rows.Nodup
  room : ∀ c ∈ s.claims, c.locked.length ≤ c.limit
  apart : ∀ c ∈ s.claims, ∀ c' ∈ s.claims, ∀ id ∈ c.locked, id ∈ c'.locked → c = c'
  sending : ∀ g ∈ s.grants, ∀ id ∈ g.ids, ∃ m, s.fleet.db.messages.find? id = some m ∧
    m.status = .sending
  single : (s.grants.flatMap Grant.ids).Nodup

theorem Idle.exclusive (h : s.Idle) : s.Exclusive := by
  have unclaimed : ∀ c, c ∉ s.claims := fun c => h.claims ▸ Table.not_mem_empty c
  exact {
    begun := fun c mem => absurd mem (unclaimed c)
    due := fun c mem => absurd mem (unclaimed c)
    nodup := fun c mem => absurd mem (unclaimed c)
    room := fun c mem => absurd mem (unclaimed c)
    apart := fun c mem => absurd mem (unclaimed c)
    sending := by simp [h.grants]
    single := by simp [h.grants] }

theorem stillDue_iff {now : Time} : s.stillDue now id = true ↔
    ∃ m, s.fleet.db.messages.find? id = some m ∧ m.due now = true := by
  unfold stillDue
  cases s.fleet.db.messages.find? id <;> simp

theorem not_taken {w : String} (free : s.taken w id = false) (mem : c ∈ s.claims)
    (other : c.worker ≠ w) : id ∉ c.locked := by
  intro locked
  have unlocked := List.any_eq_false.mp free c mem
  simp [other, locked] at unlocked

/-- A claim that has gone on, or one of the others. -/
theorem cases_of_proceed (found : s.claims.find? c.worker = some c) {stage : ClaimStage}
    {more : List Nat} {d : Claim} (mem : d ∈ (s.proceed c.worker stage more).claims) :
    d = { c with stage := stage, locked := c.locked ++ more } ∨
      d ∈ s.claims ∧ d.worker ≠ c.worker := by
  obtain ⟨e, there, rfl⟩ := (s.claims.mem_modify c.worker (fun c =>
    { c with stage := stage, locked := c.locked ++ more }) fun _ => rfl).mp mem
  by_cases same : e.worker = c.worker
  · obtain rfl := Table.eq_of_key_eq there (Table.mem_of_find? found) same
    exact .inl (if_pos rfl)
  · rw [if_neg same]
    exact .inr ⟨there, same⟩

/-- A claim goes on: what it locks more is due, new to it and locked by nobody else. -/
theorem Exclusive.proceed (h : s.Exclusive) (found : s.claims.find? c.worker = some c)
    {stage : ClaimStage} {more : List Nat} (going : stage ≠ .begun)
    (due : ∀ id ∈ more, s.stillDue c.now id = true)
    (nodup : ({ c with stage := stage, locked := c.locked ++ more } : Claim).rows.Nodup)
    (room : (c.locked ++ more).length ≤ c.limit)
    (free : ∀ id ∈ more, s.taken c.worker id = false) :
    (s.proceed c.worker stage more).Exclusive where
  sending := h.sending
  single := h.single
  begun d mem stays := by
    rcases cases_of_proceed found mem with rfl | ⟨old, _⟩
    · exact absurd stays going
    · exact h.begun d old stays
  due d mem := by
    rcases cases_of_proceed found mem with rfl | ⟨old, _⟩
    · intro id locked
      rcases List.mem_append.mp locked with before | new
      · exact h.due c (Table.mem_of_find? found) id before
      · exact due id new
    · exact h.due d old
  nodup d mem := by
    rcases cases_of_proceed found mem with rfl | ⟨old, _⟩
    · exact nodup
    · exact h.nodup d old
  room d mem := by
    rcases cases_of_proceed found mem with rfl | ⟨old, _⟩
    · exact room
    · exact h.room d old
  apart d memD e memE id inD inE := by
    have outside : ∀ d ∈ s.claims, d.worker ≠ c.worker → id ∈ d.locked →
        id ∉ c.locked ++ more := by
      intro d old other locked both
      rcases List.mem_append.mp both with before | new
      · exact other (congrArg Claim.worker
          (h.apart d old c (Table.mem_of_find? found) id locked before))
      · exact not_taken (free id new) old other locked
    rcases cases_of_proceed found memD with rfl | ⟨oldD, otherD⟩
    · rcases cases_of_proceed found memE with rfl | ⟨oldE, otherE⟩
      · rfl
      · exact absurd inD (outside e oldE otherE inE)
    · rcases cases_of_proceed found memE with rfl | ⟨oldE, otherE⟩
      · exact absurd inE (outside d oldD otherD inD)
      · exact h.apart d oldD e oldE id inD inE

/-- Fewer claims are open, and the locked rows are as they were. -/
theorem Exclusive.fewer (h : s.Exclusive) (claims : ∀ c ∈ t.claims, c ∈ s.claims)
    (rows : ∀ c ∈ t.claims, ∀ id ∈ c.locked,
      t.fleet.db.messages.find? id = s.fleet.db.messages.find? id)
    (sending : ∀ g ∈ t.grants, ∀ id ∈ g.ids, ∃ m, t.fleet.db.messages.find? id = some m ∧
      m.status = .sending) (single : (t.grants.flatMap Grant.ids).Nodup) : t.Exclusive where
  due c mem id locked := by
    rw [stillDue, rows c mem id locked]
    exact h.due c (claims c mem) id locked
  begun c mem := h.begun c (claims c mem)
  nodup c mem := h.nodup c (claims c mem)
  room c mem := h.room c (claims c mem)
  apart c mem c' mem' := h.apart c (claims c mem) c' (claims c' mem')
  sending := sending
  single := single

theorem settle_find? (s : Claiming) (c : Claim) (order : List Nat) (id : Nat) :
    (s.settle c order).fleet.db.messages.find? id = (s.fleet.db.messages.find? id).map fun m =>
      if m.id ∈ c.locked then m.claim c.worker c.now else m := by
  refine (s.fleet.db.find?_updateMessages _ (Message.claim c.worker c.now) (fun _ => rfl) id).trans
    ?_
  simp only [decide_eq_true_eq]

theorem pending_of_due {m : Message} {now : Time} (due : m.due now = true) : m.status.Pending := by
  simp only [Message.due, Bool.and_eq_true, decide_eq_true_eq] at due
  exact due.1

/-- What a claim has locked is in no grant. -/
theorem Exclusive.locked_not_granted (h : s.Exclusive) (mem : c ∈ s.claims) (locked : id ∈ c.locked)
    {g : Grant} (granted : g ∈ s.grants) : id ∉ g.ids := by
  intro out
  obtain ⟨m, found, due⟩ := stillDue_iff.mp (h.due c mem id locked)
  obtain ⟨m', found', sending⟩ := h.sending g granted id out
  obtain rfl := Option.some.inj (found.symm.trans found')
  exact (pending_of_due due).ne_sending sending

theorem Exclusive.settle (h : s.Exclusive) (found : s.claims.find? c.worker = some c)
    {order : List Nat} (perm : order.Perm c.locked) : (s.settle c order).Exclusive := by
  have mem := Table.mem_of_find? found
  refine h.fewer (fun d kept => (Table.mem_delete.mp kept).1) ?_ ?_ ?_
  · -- another claim's rows are not among those that are written
    intro d kept id locked
    obtain ⟨old, other⟩ := Table.mem_delete.mp kept
    rw [settle_find?]
    obtain ⟨m, there, _⟩ := stillDue_iff.mp (h.due d old id locked)
    have outside : m.id ∉ c.locked := by
      rw [Table.key_of_find? there]
      intro both
      simp [h.apart d old c mem id locked both] at other
    rw [there, Option.map_some, if_neg outside]
  · intro g granted id out
    rw [settle_find?]
    rcases List.mem_append.mp granted with old | new
    · obtain ⟨m, there, sending⟩ := h.sending g old id out
      rw [there, Option.map_some]
      refine ⟨_, rfl, ?_⟩
      split
      · rfl
      · exact sending
    · obtain rfl := List.mem_singleton.mp new
      have locked : id ∈ c.locked := perm.mem_iff.mp out
      obtain ⟨m, there, _⟩ := stillDue_iff.mp (h.due c mem id locked)
      rw [there, Option.map_some, if_pos (by rwa [Table.key_of_find? there])]
      exact ⟨_, rfl, rfl⟩
  · show ((s.grants ++ [_]).flatMap Grant.ids).Nodup
    rw [List.flatMap_append, List.flatMap_singleton]
    refine List.nodup_append.mpr ⟨h.single,
      perm.nodup_iff.mpr (List.nodup_append.mp (h.nodup c mem)).1, ?_⟩
    rintro id out _ returned rfl
    obtain ⟨g, granted, out⟩ := List.mem_flatMap.mp out
    exact h.locked_not_granted mem (perm.mem_iff.mp returned) granted out

theorem snapshot_nodup {db : Database} {now : Time} {order : List Nat}
    (h : Snapshot db now order) : order.Nodup :=
  h.1.nodup_iff.mpr (db.messages.nodup.sublist (List.filter_sublist.map _))

theorem settle_of_commit {order : List Nat} (served : s.serve c (.commit order) = some t) :
    order.Perm c.locked ∧ t = s.settle c order := by
  dsimp only [Claiming.serve] at served
  split at served
  all_goals
    first
      | cases served
      | split at served <;> cases served
        exact ⟨by assumption, rfl⟩

theorem Exclusive.serve (h : s.Exclusive) (found : s.claims.find? c.worker = some c)
    {act : ClaimStep} (served : s.serve c act = some t) : t.Exclusive := by
  have mem := Table.mem_of_find? found
  have nodup := h.nodup c mem
  have locked : c.locked.Nodup := (List.nodup_append.mp nodup).1
  have room := h.room c mem
  cases act with
  | scan order =>
      dsimp only [Claiming.serve] at served
      split at served
      · rename_i begun
        split at served <;> cases served
        rename_i snapshot
        refine h.proceed found (by simp) (by simp) ?_ (by simpa using room) (by simp)
        simpa [Claim.rows, h.begun c mem begun] using snapshot_nodup snapshot
      · cases served
  | lockNext =>
      dsimp only [Claiming.serve] at served
      split at served <;> cases served
      rename_i candidates scanning
      have distinct : (c.locked ++ candidates).Nodup := by
        simpa only [Claim.rows, scanning] using nodup
      -- the statement is over, or the row is skipped, or it is locked
      unfold Claiming.lockNext
      split
      · refine h.proceed found (by simp) (by simp) ?_ (by simpa using room) (by simp)
        simpa [Claim.rows] using locked
      · rename_i id rest
        split
        · refine h.proceed found (by simp) (by simp) ?_ (by simpa using room) (by simp)
          simpa [Claim.rows] using locked
        · rename_i more
          split
          · refine h.proceed found (by simp) (by simp) ?_ (by simpa using room) (by simp)
            simpa [Claim.rows] using distinct.sublist
              ((List.sublist_cons_self id rest).append_left c.locked)
          · rename_i free
            simp only [Bool.or_eq_true, Bool.not_eq_true', not_or, Bool.not_eq_true,
              Bool.not_eq_false] at free
            refine h.proceed found (by simp) ?_ ?_ ?_ ?_
            · simpa using free.2
            · simpa [Claim.rows] using distinct
            · rw [List.length_append]
              exact Nat.lt_of_not_le more
            · simpa using free.1
  | update =>
      dsimp only [Claiming.serve] at served
      split at served <;> cases served
      refine h.proceed found (by simp) (by simp) ?_ (by simpa using room) (by simp)
      simpa [Claim.rows] using locked
  | commit order =>
      obtain ⟨perm, rfl⟩ := settle_of_commit served
      exact h.settle found perm
  | rollback =>
      cases served
      refine h.fewer (fun d kept => (Table.mem_delete.mp kept).1) (fun _ _ _ _ => rfl) h.sending
        h.single

theorem cases_of_begin {d : Claim} (fresh : s.claims.find? c.worker = none)
    (mem : d ∈ s.claims.insert c fresh) : d ∈ s.claims ∨ d = c := Table.mem_insert.mp mem

theorem Exclusive.begin (h : s.Exclusive) {w : String} {limit : Nat} {now : Time}
    (fresh : s.claims.find? w = none) :
    ({ s with claims := s.claims.insert ⟨w, limit, now, .begun, []⟩ fresh } :
      Claiming).Exclusive := by
  constructor
  case sending => exact h.sending
  case single => exact h.single
  case apart =>
    intro d memD e memE id inD inE
    rcases cases_of_begin fresh memD with oldD | rfl
    · rcases cases_of_begin fresh memE with oldE | rfl
      · exact h.apart d oldD e oldE id inD inE
      · cases inE
    · cases inD
  all_goals
    intro d mem
    rcases cases_of_begin fresh mem with old | rfl
  · exact h.begun d old
  · exact fun _ => rfl
  · exact h.due d old
  · simp
  · exact h.nodup d old
  · simp [Claim.rows]
  · exact h.room d old
  · simp

theorem Exclusive.whole (h : s.Exclusive) {fleet : Fleet} (calm : s.waits fleet = false)
    (p : Claim → Bool) :
    Exclusive ⟨fleet, s.claims.delete p, s.grants.map (Grant.keep fleet.db)⟩ := by
  refine h.fewer (fun c mem => (Table.mem_delete.mp mem).1) ?_ ?_ ?_
  · intro c mem id locked
    have still := List.any_eq_false.mp calm c (Table.mem_delete.mp mem).1
    simp only [List.any_eq_true, not_exists, not_and, decide_eq_true_eq, ne_eq, not_not] at still
    exact still id locked
  · intro g granted id out
    obtain ⟨g, _, rfl⟩ := List.mem_map.mp granted
    have sending := (List.mem_filter.mp out).2
    cases found : fleet.db.messages.find? id with
    | none =>
        rw [found] at sending
        cases sending
    | some m =>
        rw [found] at sending
        exact ⟨m, rfl, by simpa using sending⟩
  · refine h.single.sublist ?_
    dsimp only
    induction s.grants with
    | nil => exact .refl _
    | cons g grants ih =>
        rw [List.map_cons, List.flatMap_cons, List.flatMap_cons]
        exact List.filter_sublist.append ih

/-- What can happen at one statement. -/
inductive Advances (D : Deployment) (s : Claiming) (now later : Time) :
    ClaimStatement → Claiming → Prop
  | whole {action : Action} {fleet : Fleet} (other : action.isClaim = false)
      (unopened : action.worker?.any (fun w => (s.claims.find? w).isSome) = false)
      (moved : Fleet.advance D s.fleet now later action = some fleet)
      (calm : s.waits fleet = false) :
      Advances D s now later (.whole action) ⟨fleet,
        s.claims.delete fun c => action.interrupts? = some c.worker,
        s.grants.map (Grant.keep fleet.db)⟩
  | begin {w : String} {limit : Nat} (idle : (s.fleet.workers w).phase = .serving [])
      (fresh : s.claims.find? w = none) :
      Advances D s now later (.begin w limit)
        { s with claims := s.claims.insert ⟨w, limit, now, .begun, []⟩ fresh }
  | next {c : Claim} {statement : ClaimStep} {t : Claiming}
      (found : s.claims.find? c.worker = some c) (served : s.serve c statement = some t) :
      Advances D s now later (.next c.worker statement) t

theorem advances_of_advance {now later : Time} {act : ClaimStatement}
    (taken : Claiming.advance D s now later act = some t) : Advances D s now later act t := by
  cases act with
  | whole action =>
      dsimp only [Claiming.advance] at taken
      split at taken
      · cases taken
      · rename_i free
        simp only [Bool.or_eq_true, not_or, Bool.not_eq_true] at free
        obtain ⟨fleet, moved, taken⟩ := Option.bind_eq_some_iff.mp taken
        split at taken <;> cases taken
        rename_i calm
        exact .whole free.1 free.2 moved (by simpa using calm)
  | begin w limit =>
      dsimp only [Claiming.advance] at taken
      split at taken
      · rename_i idle
        obtain ⟨claims, inserted, rfl⟩ := Option.map_eq_some_iff.mp taken
        obtain ⟨fresh, rfl⟩ := Table.insert?_eq_some.mp inserted
        exact .begin idle fresh
      · cases taken
  | next w statement =>
      obtain ⟨c, found, served⟩ := Option.bind_eq_some_iff.mp taken
      obtain rfl := Table.key_of_find? found
      exact .next found served

theorem Exclusive.advance (h : s.Exclusive) {now later : Time} {act : ClaimStatement}
    (taken : Claiming.advance D s now later act = some t) : t.Exclusive := by
  cases advances_of_advance taken with
  | whole _ _ _ calm => exact h.whole calm _
  | begin _ fresh => exact h.begin fresh
  | next found served => exact h.serve found served

theorem exclusive_of_run (start : s.Idle) (run : Reaches (step D) Any s t) : t.Exclusive := by
  refine run.invariant start.exclusive fun r l u _ taken kept => ?_
  obtain ⟨v, advanced, rfl⟩ := Option.map_eq_some_iff.mp taken
  exact (kept.advance advanced).fewer (fun _ => id) (fun _ _ _ _ => rfl)
    (kept.advance advanced).sending (kept.advance advanced).single

theorem countP_le_one {α : Type} {l : List α} {p : α → Bool}
    (apart : l.Pairwise fun a b => p a = true → p b = false) : l.countP p ≤ 1 := by
  induction l with
  | nil => exact Nat.zero_le 1
  | cons a l ih =>
      obtain ⟨others, rest⟩ := List.pairwise_cons.mp apart
      rw [List.countP_cons]
      split
      · rename_i here
        have unmet : l.countP p = 0 := List.countP_eq_zero.mpr fun b mem => by
          simp [others b mem here]
        omega
      · exact ih rest

theorem Exclusive.claims_le_one (h : s.Exclusive) (id : Nat) :
    s.claims.rows.countP (fun c => id ∈ c.locked) ≤ 1 := by
  refine countP_le_one (List.Pairwise.imp_of_mem ?_ s.claims.nodup.of_map)
  intro c c' mem mem' different locked
  refine decide_eq_false fun both => different ?_
  exact h.apart c mem c' mem' id (of_decide_eq_true locked) both

theorem Exclusive.grants_le_one (h : s.Exclusive) (id : Nat) :
    s.grants.countP (fun g => id ∈ g.ids) ≤ 1 := by
  refine countP_le_one ((List.nodup_flatMap.mp h.single).2.imp ?_)
  intro g g' disjoint out
  exact decide_eq_false fun both => disjoint (of_decide_eq_true out) both

/-- No message is in two claims. -/
theorem Exclusive.holders_le_one (h : s.Exclusive) (id : Nat) : s.holders id ≤ 1 := by
  have claims := h.claims_le_one id
  have grants := h.grants_le_one id
  unfold holders
  by_cases locked : ∃ c ∈ s.claims, id ∈ c.locked
  · obtain ⟨c, mem, locked⟩ := locked
    have ungranted : s.grants.countP (fun g => id ∈ g.ids) = 0 := List.countP_eq_zero.mpr
      fun g granted => by simpa using h.locked_not_granted mem locked granted
    omega
  · have unclaimed : s.claims.rows.countP (fun c => id ∈ c.locked) = 0 := List.countP_eq_zero.mpr
      fun c mem => by simpa using fun held => locked ⟨c, mem, held⟩
    omega

/-! The clock of a claim is read when its transaction begins. -/

theorem cases_of_serve {act : ClaimStep} (served : s.serve c act = some t) :
    (∃ stage more, t = s.proceed c.worker stage more) ∨ t = s.close c.worker ∨
      ∃ order, t = s.settle c order := by
  cases act with
  | scan order =>
      dsimp only [Claiming.serve] at served
      split at served
      · split at served <;> cases served
        exact .inl ⟨_, _, rfl⟩
      · cases served
  | lockNext =>
      dsimp only [Claiming.serve] at served
      split at served <;> cases served
      unfold Claiming.lockNext
      split
      · exact .inl ⟨_, _, rfl⟩
      · refine .inl ?_
        split
        · exact ⟨_, _, rfl⟩
        · split
          · exact ⟨_, _, rfl⟩
          · exact ⟨_, _, rfl⟩
  | update =>
      dsimp only [Claiming.serve] at served
      split at served <;> cases served
      exact .inl ⟨_, _, rfl⟩
  | commit order => exact .inr (.inr ⟨order, (settle_of_commit served).2⟩)
  | rollback =>
      cases served
      exact .inr (.inl rfl)

theorem now_of_serve {act : ClaimStep} (served : s.serve c act = some t) {d : Claim}
    (mem : d ∈ t.claims) : ∃ e ∈ s.claims, e.now = d.now := by
  rcases cases_of_serve served with ⟨stage, more, rfl⟩ | rfl | ⟨order, rfl⟩
  · obtain ⟨e, there, rfl⟩ := (s.claims.mem_modify c.worker (fun c =>
      { c with stage := stage, locked := c.locked ++ more }) fun _ => rfl).mp mem
    exact ⟨e, there, by split <;> rfl⟩
  · exact ⟨d, (Table.mem_delete.mp mem).1, rfl⟩
  · exact ⟨d, (Table.mem_delete.mp mem).1, rfl⟩

theorem now_of_advance {now later : Time} {act : ClaimStatement}
    (taken : Claiming.advance D s now later act = some t) {d : Claim} (mem : d ∈ t.claims) :
    d.now = now ∨ ∃ e ∈ s.claims, e.now = d.now := by
  cases advances_of_advance taken with
  | whole => exact .inr ⟨d, (Table.mem_delete.mp mem).1, rfl⟩
  | begin _ fresh =>
      rcases cases_of_begin fresh mem with old | rfl
      · exact .inr ⟨d, old, rfl⟩
      · exact .inl rfl
  | next _ served => exact .inr (now_of_serve served mem)

theorem now_le_clock (start : s.Idle) (run : Reaches (step D) Any s t) :
    ∀ c ∈ t.claims, c.now ≤ t.fleet.clock := by
  refine run.invariant (I := fun t => ∀ c ∈ t.claims, c.now ≤ t.fleet.clock)
    (fun c mem => ?_) fun r l u _ taken kept c mem => ?_
  · rw [start.claims] at mem
    exact absurd mem (Table.not_mem_empty c)
  · obtain ⟨v, advanced, rfl⟩ := Option.map_eq_some_iff.mp taken
    show c.now ≤ r.fleet.clock + l.wait + l.lapse
    rcases now_of_advance advanced mem with now | ⟨d, there, now⟩
    · rw [now]
      exact Int.le_add_of_nonneg_right (Int.natCast_nonneg l.lapse)
    · have before := kept d there
      rw [now] at before
      have wait := Int.natCast_nonneg l.wait
      have lapse := Int.natCast_nonneg l.lapse
      unfold Time at *
      omega

/-! What a committed claim holds, and until when. -/

theorem committed {wait lapse : Nat} {w : String} {order : List Nat} {u : Claiming}
    (taken : step D t ⟨wait, lapse, .next w (.commit order)⟩ = some u) :
    ∃ c, t.claims.find? w = some c ∧ order.Perm c.locked ∧
      (∀ id, u.fleet.db.messages.find? id = (t.settle c order).fleet.db.messages.find? id) ∧
      (u.fleet.workers w).phase = .serving order ∧ u.grants = t.grants ++ [⟨w, order⟩] := by
  obtain ⟨v, advanced, rfl⟩ := Option.map_eq_some_iff.mp taken
  obtain ⟨c, found, served⟩ := Option.bind_eq_some_iff.mp advanced
  obtain rfl := Table.key_of_find? found
  obtain ⟨perm, rfl⟩ := settle_of_commit served
  exact ⟨c, found, perm, fun _ => rfl, moveTo_phase_self .., rfl⟩

theorem released_of_change {now later : Time} {action : Action} {m m' : Message} {f : Fleet}
    (change : RowChange D f now later action m m') (other : action.isClaim = false)
    (sending : m.status = .sending) : m'.status = .sending ∨ action.LetsGo := by
  cases change with
  | claimed => cases other
  | stamped => exact .inl sending
  | purged => exact .inl sending
  | _ => exact .inr trivial

theorem kept_of_step (h : t.Exclusive) {l : ClaimTurn} {u : Claiming}
    (taken : step D t l = some u) {g : Grant} (granted : g ∈ t.grants) {id : Nat}
    (out : id ∈ g.ids) :
    (∃ g' ∈ u.grants, g'.worker = g.worker ∧ id ∈ g'.ids) ∨
      ∃ action m, l.statement = .whole action ∧ action.LetsGo ∧
        u.fleet.db.messages.find? id = some m ∧ m.status ≠ .sending := by
  obtain ⟨v, advanced, rfl⟩ := Option.map_eq_some_iff.mp taken
  generalize l.statement = act at advanced ⊢
  cases advances_of_advance advanced with
  | @whole action fleet other _ moved _ =>
      obtain ⟨m, found, sending⟩ := h.sending g granted id out
      have stays : ∀ m', fleet.db.messages.find? id = some m' → m'.status = .sending →
          id ∈ (g.keep fleet.db).ids := fun m' there sending =>
        List.mem_filter.mpr ⟨out, by simp [there, sending]⟩
      have keep := List.mem_map_of_mem (f := Grant.keep fleet.db) granted
      cases (effect_of_advance D moved).row id with
      | same eq => exact .inl ⟨_, keep, rfl, stays m (eq.trans found) sending⟩
      | @changed _ m' before after change =>
          obtain rfl := Option.some.inj (before.symm.trans found)
          rcases released_of_change change other sending with sending' | letsGo
          · exact .inl ⟨_, keep, rfl, stays _ after sending'⟩
          · by_cases sending' : m'.status = .sending
            · exact .inl ⟨_, keep, rfl, stays _ after sending'⟩
            · exact .inr ⟨action, _, rfl, letsGo, after, sending'⟩
      | new _ before => cases before.symm.trans found
  | begin => exact .inl ⟨g, granted, rfl, out⟩
  | next _ served =>
      refine .inl ⟨g, ?_, rfl, out⟩
      rcases cases_of_serve served with ⟨stage, more, rfl⟩ | rfl | ⟨order, rfl⟩
      · exact granted
      · exact granted
      · exact List.mem_append_left _ granted

theorem due_iff {m : Message} {now : Time} : m.due now = true ↔
    m.status.Pending ∧ ∃ due, m.nextAttemptAt = some due ∧ due ≤ now := by
  simp only [Message.due, Bool.and_eq_true, decide_eq_true_eq, Option.any_eq_true]

/-- No message is in two claims, open or committed. What a claim returns is no more than
its limit, was due, and has been marked as in flight; it is out until it is released, its
outcome is recorded, or it is reaped. -/
theorem claims_are_exclusive (start : s.Idle) (run : Reaches (step D) Any s t) :
    (∀ id, t.holders id ≤ 1) ∧
    (∀ wait lapse w order u, step D t ⟨wait, lapse, .next w (.commit order)⟩ = some u →
      ∃ c, t.claims.find? w = some c ∧ order.length ≤ c.limit ∧ order.Nodup ∧
        c.now ≤ t.fleet.clock ∧ (u.fleet.workers w).phase = .serving order ∧
        u.grants = t.grants ++ [⟨w, order⟩] ∧
        ∀ id ∈ order, ∃ m due, t.fleet.db.messages.find? id = some m ∧ m.status.Pending ∧
          m.nextAttemptAt = some due ∧ due ≤ c.now ∧
          u.fleet.db.messages.find? id = some (m.claim w c.now)) ∧
    ∀ l u, step D t l = some u → ∀ g ∈ t.grants, ∀ id ∈ g.ids,
      (∃ g' ∈ u.grants, g'.worker = g.worker ∧ id ∈ g'.ids) ∨
        ∃ action m, l.statement = .whole action ∧ action.LetsGo ∧
          u.fleet.db.messages.find? id = some m ∧ m.status ≠ .sending := by
  have kept := exclusive_of_run start run
  refine ⟨kept.holders_le_one, ?_, fun l u taken g granted id out =>
    kept_of_step kept taken granted out⟩
  intro wait lapse w order u taken
  obtain ⟨c, found, perm, rows, serving, grants⟩ := committed taken
  have mem := Table.mem_of_find? found
  refine ⟨c, found, perm.length_eq ▸ kept.room c mem,
    perm.nodup_iff.mpr (List.nodup_append.mp (kept.nodup c mem)).1, now_le_clock start run c mem,
    serving, grants, fun id returned => ?_⟩
  have locked : id ∈ c.locked := perm.mem_iff.mp returned
  obtain ⟨m, there, passes⟩ := stillDue_iff.mp (kept.due c mem id locked)
  obtain ⟨pending, due, dueAt, early⟩ := due_iff.mp passes
  refine ⟨m, due, there, pending, dueAt, early, ?_⟩
  have written := rows id
  rw [settle_find?, there, Option.map_some, if_pos (by rwa [Table.key_of_find? there]),
    Table.key_of_find? found] at written
  exact written

/-! Alone, a claim is what it is in the fleet. -/

/-- With one more claim open. -/
def beside (s : Claiming) (c : Claim) (fresh : s.claims.find? c.worker = none) : Claiming :=
  { s with claims := s.claims.insert c fresh }

theorem proceed_beside (fresh : s.claims.find? c.worker = none) (stage : ClaimStage)
    (more : List Nat) : (s.beside c fresh).proceed c.worker stage more =
      s.beside { c with stage := stage, locked := c.locked ++ more } fresh := by
  have rows (f : Claim → Claim) : s.claims.rows.map (fun d =>
      if d.worker = c.worker then f d else d) = s.claims.rows := by
    refine (List.map_congr_left fun d mem => ?_).trans (List.map_id _)
    exact if_neg (Table.find?_eq_none.mp fresh d mem)
  unfold proceed beside
  congr 1
  refine Table.eq_of_rows ?_
  simp [Table.modify, Table.update, Table.insert, rows]

theorem taken_beside (fresh : s.claims.find? c.worker = none) :
    (s.beside c fresh).taken c.worker id = s.taken c.worker id := by
  simp [taken, beside, Table.insert]

/-- A statement that takes no time. -/
theorem reaches_now (statement : ClaimStatement)
    (taken : advance D s s.fleet.clock s.fleet.clock statement = some t)
    (clock : t.fleet.clock = s.fleet.clock) : Reaches (step D) Any s t := by
  refine .next ⟨0, 0, statement⟩ .refl trivial ?_
  have now : s.fleet.clock + ((0 : Nat) : Int) = s.fleet.clock := Int.add_zero _
  simp only [step, now, taken, Option.map_some]
  rw [← clock]

theorem reaches_serve {fresh : s.claims.find? c.worker = none} {statement : ClaimStep}
    (served : (s.beside c fresh).serve c statement = some t)
    (clock : t.fleet.clock = s.fleet.clock) : Reaches (step D) Any (s.beside c fresh) t := by
  refine reaches_now (.next c.worker statement) ?_ clock
  have found : (s.beside c fresh).claims.find? c.worker = some c :=
    (s.claims.find?_insert c fresh c.worker).trans (if_pos rfl)
  simp only [advance, found, Option.bind_some, served]

/-- The rows of a snapshot that are free are locked in their order, while there is room. -/
theorem reaches_selected {c : Claim} (fresh : s.claims.find? c.worker = none) (ids : List Nat)
    (scanning : c.stage = .scanning ids) :
    Reaches (step D) Any (s.beside c fresh) (s.beside { c with
      stage := .selected
      locked := c.locked ++ (ids.filter fun id => !s.taken c.worker id && s.stillDue c.now id).take
        (c.limit - c.locked.length) } fresh) := by
  induction ids generalizing c with
  | nil =>
      have served : (s.beside c fresh).serve c .lockNext =
          some ((s.beside c fresh).proceed c.worker .selected []) := by
        simp only [serve, scanning, lockNext]
      rw [proceed_beside] at served
      simpa using reaches_serve served rfl
  | cons id ids ih =>
      have served : (s.beside c fresh).serve c .lockNext =
          some ((s.beside c fresh).lockNext c (id :: ids)) := by
        simp only [serve, scanning]
      rw [lockNext, taken_beside] at served
      by_cases full : c.limit ≤ c.locked.length
      · rw [if_pos full, proceed_beside] at served
        simpa [Nat.sub_eq_zero_of_le full] using reaches_serve served rfl
      · rw [if_neg full] at served
        by_cases skip : s.taken c.worker id || !s.stillDue c.now id
        · have skipped : (!s.taken c.worker id && s.stillDue c.now id) = false := by
            cases taken : s.taken c.worker id <;> simp_all
          rw [if_pos (by exact skip), proceed_beside] at served
          have rest := ih (c := { c with stage := .scanning ids, locked := c.locked ++ [] }) fresh
            rfl
          rw [List.filter_cons_of_neg (by simpa using skipped)]
          simpa using (reaches_serve served rfl).trans rest
        · have free : (!s.taken c.worker id && s.stillDue c.now id) = true := by
            simpa using skip
          rw [if_neg (by exact skip), proceed_beside] at served
          have rest := ih (c := { c with stage := .scanning ids, locked := c.locked ++ [id] }) fresh
            rfl
          rw [List.filter_cons_of_pos (by simpa using free)]
          have room : c.limit - c.locked.length = (c.limit - (c.locked ++ [id]).length) + 1 := by
            rw [List.length_append, List.length_singleton]
            omega
          rw [room, List.take_succ_cons]
          simpa using (reaches_serve served rfl).trans rest

/-- The rows that are due, in the order of the claim query. -/
def dueRows (db : Database) (now : Time) : List Message :=
  (db.messages.rows.filter (·.due now)).insertionSort fun a b =>
    a.nextAttemptAt.getD 0 ≤ b.nextAttemptAt.getD 0

theorem snapshot_dueRows (db : Database) (now : Time) :
    Snapshot db now ((dueRows db now).map Message.id) := by
  refine ⟨(List.perm_insertionSort _ _).map _, ?_⟩
  have rows : ((dueRows db now).map Message.id).filterMap (fun id => db.messages.find? id) =
      dueRows db now := by
    rw [List.filterMap_map]
    refine (List.filterMap_congr fun m mem => ?_).trans List.filterMap_some
    have mem : m ∈ db.messages := (List.mem_filter.mp ((List.mem_insertionSort _).mp mem)).1
    exact Table.find?_of_mem mem
  rw [rows]
  exact List.pairwise_insertionSort _ _

theorem free_dueRows (w : String) (limit : Nat) :
    (((dueRows s.fleet.db s.fleet.clock).map Message.id).filter fun id =>
      !s.taken w id && s.stillDue s.fleet.clock id).take limit =
      dueMessages s.fleet.db (s.taken w) limit s.fleet.clock := by
  have free : (dueRows s.fleet.db s.fleet.clock).filter (fun m => !s.taken w m.id &&
      s.stillDue s.fleet.clock m.id) =
      (dueRows s.fleet.db s.fleet.clock).filter fun m => !s.taken w m.id := by
    refine List.filter_congr fun m mem => ?_
    obtain ⟨mem, due⟩ := List.mem_filter.mp ((List.mem_insertionSort _).mp mem)
    have found : s.fleet.db.messages.find? m.id = some m := Table.find?_of_mem mem
    rw [stillDue_iff.mpr ⟨m, found, due⟩, Bool.and_true]
  rw [List.filter_map, ← List.map_take]
  simp only [Function.comp_def]
  rw [free, dueRows, filter_insertionSort, List.filter_filter]
  simp only [dueMessages, Bool.and_comm]

theorem claims_of_settle (fresh : s.claims.find? c.worker = none) (order : List Nat) :
    ((s.beside c fresh).settle c order).claims = s.claims := by
  refine Table.eq_of_rows ?_
  have others : s.claims.rows.filter (fun d => !decide (d.worker = c.worker)) = s.claims.rows :=
    List.filter_eq_self.mpr fun d mem => by simpa using Table.find?_eq_none.mp fresh d mem
  simp [settle, beside, Table.delete, Table.insert, others]

/-- A claim whose statements follow one another is the step of the fleet, with the rows of
the other open claims as the locked ones. -/
theorem fleet_claim_of_statements {w : String} (idle : (s.fleet.workers w).phase = .serving [])
    (fresh : s.claims.find? w = none) {order : List Nat} {f : Fleet}
    (claimed : Fleet.step D s.fleet ⟨0, 0, .claim w (s.taken w) order⟩ = some f) :
    ∃ t, Reaches (step D) Any s t ∧ t.fleet = f ∧ t.claims = s.claims := by
  have now : s.fleet.clock + ((0 : Nat) : Int) = s.fleet.clock := Int.add_zero _
  simp only [Fleet.step, now, Fleet.advance, idle, claimMessages] at claimed
  split at claimed
  · rename_i perm
    obtain rfl := Option.some.inj claimed
    let rows := (dueRows s.fleet.db s.fleet.clock).map Message.id
    let ids := dueMessages s.fleet.db (s.taken w) batchSize s.fleet.clock
    let c (stage : ClaimStage) (locked : List Nat) : Claim :=
      ⟨w, batchSize, s.fleet.clock, stage, locked⟩
    have begun : Reaches (step D) Any s (s.beside (c .begun []) fresh) :=
      reaches_now (.begin w batchSize)
        (by simp [advance, idle, Table.insert?, fresh, beside, c]) rfl
    have scanned : (s.beside (c .begun []) fresh).serve (c .begun []) (.scan rows) =
        some (s.beside (c (.scanning rows) []) fresh) := by
      have snapshot : Snapshot (s.beside (c .begun []) fresh).fleet.db (c .begun []).now rows :=
        snapshot_dueRows s.fleet.db s.fleet.clock
      simp only [serve, c, if_pos snapshot]
      exact congrArg some (proceed_beside (c := c .begun []) fresh (.scanning rows) [])
    have selected : Reaches (step D) Any (s.beside (c (.scanning rows) []) fresh)
        (s.beside (c .selected ids) fresh) := by
      have reached := reaches_selected (D := D) (c := c (.scanning rows) []) fresh rows rfl
      simpa only [c, List.nil_append, List.length_nil, Nat.sub_zero, rows, free_dueRows] using
        reached
    have before := (begun.trans (reaches_serve scanned rfl)).trans selected
    -- without a row the update is left out
    cases listed : ids with
    | nil =>
        have listed : dueMessages s.fleet.db (s.taken w) batchSize s.fleet.clock = [] := listed
        rw [show ids = [] from listed] at before
        have commit : (s.beside (c .selected []) fresh).serve (c .selected []) (.commit order) =
            some ((s.beside (c .selected []) fresh).settle (c .selected []) order) :=
          if_pos (listed ▸ perm)
        refine ⟨_, before.trans (reaches_serve commit rfl), ?_, claims_of_settle fresh order⟩
        rw [listed]
        rfl
    | cons id rest =>
        have listed : dueMessages s.fleet.db (s.taken w) batchSize s.fleet.clock = id :: rest :=
          listed
        rw [show ids = id :: rest from listed] at before
        have update : (s.beside (c .selected (id :: rest)) fresh).serve (c .selected (id :: rest))
            .update = some (s.beside (c .updated (id :: rest)) fresh) := by
          simp only [serve, c]
          have marked := proceed_beside (c := c .selected (id :: rest)) fresh .updated []
          rw [List.append_nil] at marked
          exact congrArg some marked
        have commit : (s.beside (c .updated (id :: rest)) fresh).serve (c .updated (id :: rest))
            (.commit order) = some ((s.beside (c .updated (id :: rest)) fresh).settle
              (c .updated (id :: rest)) order) := if_pos (listed ▸ perm)
        refine ⟨_, (before.trans (reaches_serve update rfl)).trans (reaches_serve commit rfl), ?_,
          claims_of_settle fresh order⟩
        rw [listed]
        rfl
  · cases claimed

end Claiming

namespace Sample

def unclaimed : Claiming := ⟨fleet mailbox, Table.empty, []⟩

theorem unclaimed_idle : unclaimed.Idle := ⟨rfl, rfl⟩

/-- Two workers have the same letter in their snapshots. -/
def race : List ClaimTurn := [
  ⟨0, 0, .whole (accept mailbox 1 "ann@example.net" []).action⟩,
  ⟨0, 0, .whole (.start "A")⟩, ⟨0, 0, .whole (.start "B")⟩,
  ⟨0, 0, .begin "A" 10⟩, ⟨0, 0, .begin "B" 10⟩,
  ⟨0, 0, .next "A" (.scan [1])⟩, ⟨0, 0, .next "B" (.scan [1])⟩,
  ⟨0, 0, .next "A" .lockNext⟩, ⟨0, 0, .next "B" .lockNext⟩,
  ⟨0, 0, .next "A" .lockNext⟩, ⟨0, 0, .next "A" .update⟩, ⟨0, 0, .next "A" (.commit [1])⟩]

def afterRace : Claiming := final (Claiming.step deployment) unclaimed race

end Sample

theorem raced_letter_is_in_one_claim :
    Sample.afterRace.holders 1 = 1 ∧ ∀ id, Sample.afterRace.holders id ≤ 1 := by
  have run : Reaches (Claiming.step Sample.deployment) Any Sample.unclaimed Sample.afterRace ∧
      Sample.afterRace.holders 1 = 1 :=
    reaches_final (Claiming.holders · 1) (by decide +kernel) fun _ _ _ => trivial
  exact ⟨run.2, (Claiming.claims_are_exclusive Sample.unclaimed_idle run.1).1⟩

end Emaild
