import Emaild.Domains.Sweeps
import Emaild.Jobs
import Emaild.Transition.History
import Emaild.Transition.Reaches

/-!
The queue of jobs with any number of provisioners. A provisioner locks a row, executes it
and commits how it has ended, all in one transaction: until then the committed row waits,
and what keeps others from it is the lock. Nothing but a lookup keeps two requests for the
same thing apart.
-/
namespace Emaild
open Relational Text Transition

/-- The committed rows, and the rows that provisioners have locked and execute. -/
structure JobQueue (P : Type) where
  history : History Jobs
  executing : List (P × ProvisioningJob)

/-- The transactions of the queue. A provisioner that is killed, or whose session ends with
an exception, abandons its job. An enqueuing reads a value of some age. -/
inductive JobAction (P σ : Type)
  | enqueue (r : EnqueueRequest) (age : Nat)
  | claim (p : P) (locked : Nat → Bool) (tie : Nat → Nat)
  | finish (p : P) (outcome : Except Raised String) (far : σ) (claimedAt completedAt : Time)
  | abandon (p : P)
  | reap (now : Time)

namespace JobQueue
variable {P : Type} (q : JobQueue P)

def start (jobs : Jobs) : JobQueue P := ⟨.start jobs, []⟩

abbrev current : Jobs := q.history.current

def commit (jobs : Jobs) : JobQueue P := { q with history := q.history.commit jobs }

/-- The transaction of a provisioner is over. -/
def release [DecidableEq P] (p : P) : JobQueue P :=
  { q with executing := q.executing.filter fun e => e.1 ≠ p }

end JobQueue

section Queue
variable {P σ : Type} [DecidableEq P] (c : Mxroute.Client σ) (rt : Runtime) (str : Raised → String)

/-- What `run_one` flushes once its job has ended with an outcome. -/
def Jobs.record (jobs : Jobs) (job : ProvisioningJob) (outcome : Except Raised String) (far : σ)
    (claimedAt completedAt : Time) : Except Raised Jobs := do
  let (status, result) ← (jobResult c str job outcome far).1
  (jobs.claim job.id claimedAt).complete rt job.id status result completedAt

/-- A transaction, or the lock that begins one. Rows that are being executed are locked. -/
def JobAction.step (q : JobQueue P) : JobAction P σ → Option (JobQueue P)
  | .enqueue r age =>
      match sessionScope (Emaild.enqueue rt r fun _ => q.current) (q.history.read age) with
      | (.ok _, jobs) => some (q.commit jobs)
      | (.error _, _) => some q
  | .claim p locked tie =>
      if p ∉ q.executing.map Prod.fst ∧ ∀ e ∈ q.executing, locked e.2.id = true then
        match q.current.next locked tie with
        | some job => some { q with executing := (p, job) :: q.executing }
        | none => some q
      else none
  | .finish p outcome far claimedAt completedAt =>
      match q.executing.find? fun e => e.1 = p with
      | none => none
      | some (_, job) =>
          match q.current.record c rt str job outcome far claimedAt completedAt with
          | .ok jobs => some ((q.release p).commit jobs)
          | .error _ => some (q.release p)
  | .abandon p => some (q.release p)
  | .reap now => some (q.commit (q.current.reapStale now).1)

/-! What a transaction does to the rows. -/

/-- What every transaction leaves of a row: what is asked for, and how it has ended. -/
structure ProvisioningJob.Endures (job job' : ProvisioningJob) : Prop where
  row : job'.id = job.id
  type : job'.jobType = job.jobType
  payload : job'.payload = job.payload
  ended : job.status.Final → job' = job

/-- Rows stay, and what is new waits. -/
structure Jobs.Endure (jobs jobs' : Jobs) : Prop where
  kept : ∀ job ∈ jobs, ∃ job' ∈ jobs', job.Endures job'

theorem ProvisioningJob.Endures.refl (job : ProvisioningJob) : job.Endures job :=
  ⟨rfl, rfl, rfl, fun _ => rfl⟩

theorem ProvisioningJob.Endures.trans {a b d : ProvisioningJob} (first : a.Endures b)
    (second : b.Endures d) : a.Endures d := by
  refine ⟨second.row.trans first.row, second.type.trans first.type,
    second.payload.trans first.payload, fun final => ?_⟩
  obtain rfl := first.ended final
  exact second.ended final

theorem Jobs.Endure.refl (jobs : Jobs) : Jobs.Endure jobs jobs :=
  ⟨fun job mem => ⟨job, mem, .refl job⟩⟩

theorem Jobs.Endure.trans {a b d : Jobs} (first : Jobs.Endure a b) (second : Jobs.Endure b d) :
    Jobs.Endure a d := by
  refine ⟨fun job mem => ?_⟩
  obtain ⟨job', mem', kept⟩ := first.kept job mem
  obtain ⟨job'', mem'', kept'⟩ := second.kept job' mem'
  exact ⟨job'', mem'', kept.trans kept'⟩

/-- What a job that has ended is recorded as. -/
def ProvisioningJob.done (status : JobStatus) (result : String) (claimedAt completedAt : Time)
    (job : ProvisioningJob) : ProvisioningJob :=
  { job with
    status := status, claimedAt := some claimedAt, result := some result
    completedAt := some completedAt }

theorem jobResult_final {job : ProvisioningJob} {outcome : Except Raised String} {far : σ}
    {status : JobStatus} {result : String}
    (h : (jobResult c str job outcome far).1 = .ok (status, result)) : status.Final := by
  unfold jobResult at h
  split at h
  · cases h
    exact .inl rfl
  · cases h
    exact .inr rfl
  · split at h
    · split at h
      · cases h
      · cases h
        exact .inr rfl
    · cases h
      exact .inr rfl
  · cases h
    exact .inr rfl

theorem mem_of_record {jobs jobs' : Jobs} {job : ProvisioningJob}
    {outcome : Except Raised String} {far : σ} {claimedAt completedAt : Time}
    (h : jobs.record c rt str job outcome far claimedAt completedAt = .ok jobs') :
    ∃ status result, status.Final ∧ ∀ row', row' ∈ jobs' ↔ ∃ row ∈ jobs,
      (if row.id = job.id then row.done status result claimedAt completedAt else row) = row' := by
  obtain ⟨⟨status, result⟩, ends, h⟩ := ok_of_bind_ok h
  refine ⟨status, result, jobResult_final c str ends, fun row' => ?_⟩
  dsimp only [Jobs.complete] at h
  split at h
  · cases h
    rw [Table.mem_modify (jobs.claim job.id claimedAt) job.id (fun job =>
      { job with status := status, result := some result, completedAt := some completedAt })
      fun _ => rfl]
    constructor
    · rintro ⟨middle, mem, rfl⟩
      obtain ⟨row, old, rfl⟩ := (Table.mem_modify jobs job.id (fun job =>
        { job with status := .running, claimedAt := some claimedAt }) fun _ => rfl).mp mem
      refine ⟨row, old, ?_⟩
      by_cases here : row.id = job.id
      · simp [here, ProvisioningJob.done]
      · simp [here]
    · rintro ⟨row, old, rfl⟩
      refine ⟨_, (Table.mem_modify jobs job.id (fun job =>
        { job with status := .running, claimedAt := some claimedAt }) fun _ => rfl).mpr
          ⟨row, old, rfl⟩, ?_⟩
      by_cases here : row.id = job.id
      · simp [here, ProvisioningJob.done]
      · simp [here]
  · cases h

/-- A request is a job that is outstanding already, or a new one that waits. -/
theorem enqueue_cases {r : EnqueueRequest} {others : Jobs → Jobs} {jobs jobs' : Jobs}
    {job : ProvisioningJob}
    (h : sessionScope (enqueue rt r others) jobs = (.ok job, jobs')) :
    jobs' = others jobs ∨ ∃ name free, r.name rt = .ok name ∧
      Jobs.about (.string name) (jobs.outstanding r.jobType) = .ok none ∧
        jobs' = (others jobs).insert (r.job name) free := by
  unfold sessionScope enqueue at h
  simp only [Tx.exec_bind, Tx.exec_lift, Tx.exec_look, Session.begin] at h
  cases named : r.name rt with
  | error e => simp [named] at h
  | ok name =>
      simp only [named] at h
      cases found : Jobs.about (.string name) (jobs.outstanding r.jobType) with
      | error e => simp [found] at h
      | ok existing =>
          simp only [found, Tx.exec_interfere] at h
          cases existing with
          | some job =>
              simp only [Tx.exec_pure, Prod.mk.injEq] at h
              exact .inl h.2.symm
          | none =>
              simp only [Tx.exec_bind, Tx.exec_flush] at h
              cases inserted : (others jobs).insertJob rt (r.job name) with
              | error e => simp [inserted] at h
              | ok grown =>
                  simp only [inserted, Tx.exec_pure, Prod.mk.injEq] at h
                  obtain ⟨_, rfl⟩ := h
                  unfold Jobs.insertJob at inserted
                  split at inserted
                  · split at inserted
                    · rename_i row
                      cases inserted
                      obtain ⟨free, rfl⟩ := Table.insert?_eq_some.mp row
                      exact .inr ⟨name, free, rfl, found, rfl⟩
                    · cases inserted
                  · cases inserted

/-- What a step can do. -/
inductive QueueChange (q : JobQueue P) : JobAction P σ → JobQueue P → Prop
  | idle {a : JobAction P σ} : QueueChange q a q
  | replayed {r : EnqueueRequest} {age : Nat} :
      QueueChange q (.enqueue r age) (q.commit q.current)
  | inserted {r : EnqueueRequest} {age : Nat} {name : String}
      (free : q.current.find? (r.job name).id = none) (named : r.name rt = .ok name)
      (unasked : Jobs.about (.string name)
        ((q.history.read age).outstanding r.jobType) = .ok none) :
      QueueChange q (.enqueue r age) (q.commit (q.current.insert (r.job name) free))
  | claimed {p : P} {locked : Nat → Bool} {tie : Nat → Nat} {job : ProvisioningJob}
      (idle : p ∉ q.executing.map Prod.fst) (mem : job ∈ q.current)
      (waits : job.status = .pending) (unlocked : ∀ e ∈ q.executing, e.2.id ≠ job.id) :
      QueueChange q (.claim p locked tie) { q with executing := (p, job) :: q.executing }
  | finished {p : P} {outcome : Except Raised String} {far : σ} {claimedAt completedAt : Time}
      {job : ProvisioningJob} {jobs : Jobs} {status : JobStatus} {result : String}
      (mem : (p, job) ∈ q.executing) (final : status.Final)
      (rows : ∀ row', row' ∈ jobs ↔ ∃ row ∈ q.current,
        (if row.id = job.id then row.done status result claimedAt completedAt else row) = row') :
      QueueChange q (.finish p outcome far claimedAt completedAt) ((q.release p).commit jobs)
  | released {a : JobAction P σ} {p : P} : QueueChange q a (q.release p)
  | reaped {now : Time} : QueueChange q (.reap now) (q.commit (q.current.reapStale now).1)

theorem next_some {jobs : Jobs} {locked : Nat → Bool} {tie : Nat → Nat} {job : ProvisioningJob}
    (h : jobs.next locked tie = some job) :
    job ∈ jobs ∧ job.status = .pending ∧ locked job.id = false := by
  have listed := List.mem_of_mem_head? (by rw [Jobs.next] at h; exact h)
  rw [List.mem_insertionSort, List.mem_filter, Bool.and_eq_true, Bool.not_eq_true'] at listed
  exact ⟨listed.1, of_decide_eq_true listed.2.1, listed.2.2⟩

theorem queueChange_of_step {q q' : JobQueue P} {a : JobAction P σ}
    (step : a.step c rt str q = some q') : QueueChange rt q a q' := by
  cases a with
  | enqueue r age =>
      dsimp only [JobAction.step] at step
      split at step <;> obtain rfl := Option.some.inj step
      · rename_i ended
        rcases enqueue_cases rt ended with rfl | ⟨name, free, named, unasked, rfl⟩
        · exact .replayed
        · exact .inserted free named unasked
      · exact .idle
  | claim p locked tie =>
      dsimp only [JobAction.step] at step
      split at step
      · rename_i ready
        split at step <;> obtain rfl := Option.some.inj step
        · rename_i job found
          obtain ⟨mem, waits, free⟩ := next_some found
          refine .claimed ready.1 mem waits fun e held same => ?_
          rw [← same, ready.2 e held] at free
          cases free
        · exact .idle
      · cases step
  | finish p outcome far claimedAt completedAt =>
      dsimp only [JobAction.step] at step
      split at step
      · cases step
      · rename_i p' job found
        have same : p' = p :=
          of_decide_eq_true (List.find?_some (p := fun e : P × _ => e.1 = p) found)
        subst same
        split at step <;> obtain rfl := Option.some.inj step
        · rename_i recorded
          obtain ⟨status, result, final, rows⟩ := mem_of_record c rt str recorded
          exact .finished (List.mem_of_find?_eq_some found) final rows
        · exact .released
  | abandon p =>
      obtain rfl := Option.some.inj step
      exact .released
  | reap now =>
      obtain rfl := Option.some.inj step
      exact .reaped

/-! Locks. -/

/-- The row of a job that is being executed still waits, for everybody else, and it is being
executed by one provisioner only. -/
structure JobQueue.Exclusive (q : JobQueue P) : Prop where
  waits : ∀ e ∈ q.executing, ∃ job ∈ q.current, job.id = e.2.id ∧ job.status = .pending
  once : (q.executing.map fun e => e.2.id).Nodup
  busy : (q.executing.map Prod.fst).Nodup

omit [DecidableEq P] in
/-- No other provisioner executes the job of one. -/
theorem JobQueue.Exclusive.same {q : JobQueue P} (exclusive : q.Exclusive)
    {e e' : P × ProvisioningJob} (mem : e ∈ q.executing) (mem' : e' ∈ q.executing)
    (same : e.2.id = e'.2.id) : e = e' :=
  List.inj_on_of_nodup_map exclusive.once mem mem' same

theorem JobQueue.Exclusive.release {q : JobQueue P} (exclusive : q.Exclusive) (p : P) :
    (q.release p).Exclusive where
  waits e mem := exclusive.waits e (List.mem_of_mem_filter mem)
  once := exclusive.once.sublist (List.filter_sublist.map _)
  busy := exclusive.busy.sublist (List.filter_sublist.map _)

theorem mem_reapStale {jobs : Jobs} {now : Time} {job' : ProvisioningJob} :
    job' ∈ (jobs.reapStale now).1 ↔ ∃ job ∈ jobs,
      (if Jobs.isStale now job then { job with status := .pending, claimedAt := none } else job) =
        job' :=
  Table.mem_update jobs (Jobs.isStale now)
    (fun job => { job with status := .pending, claimedAt := none }) fun _ => rfl

theorem running_of_isStale {now : Time} {job : ProvisioningJob} (h : Jobs.isStale now job = true) :
    job.status = .running := by
  rw [Jobs.isStale, Bool.and_eq_true] at h
  exact of_decide_eq_true h.1

theorem QueueChange.exclusive {q q' : JobQueue P} {a : JobAction P σ}
    (change : QueueChange rt q a q') (exclusive : q.Exclusive) : q'.Exclusive := by
  cases change with
  | idle => exact exclusive
  | replayed => exact ⟨exclusive.waits, exclusive.once, exclusive.busy⟩
  | inserted free =>
      refine ⟨fun e mem => ?_, exclusive.once, exclusive.busy⟩
      obtain ⟨job, old, waits⟩ := exclusive.waits e mem
      exact ⟨job, (Table.mem_insert_iff _ _ free job).mpr (.inl old), waits⟩
  | @claimed p _ _ job idle mem waits unlocked =>
      refine ⟨fun e held => ?_, ?_, ?_⟩
      · rcases List.mem_cons.mp held with rfl | before
        · exact ⟨job, mem, rfl, waits⟩
        · exact exclusive.waits e before
      · refine List.nodup_cons.mpr ⟨fun taken => ?_, exclusive.once⟩
        obtain ⟨e, held, same⟩ := List.mem_map.mp taken
        exact unlocked e held same
      · exact List.nodup_cons.mpr ⟨idle, exclusive.busy⟩
  | @finished p _ _ _ _ job jobs status result mem final rows =>
      refine ⟨fun e held => ?_, (exclusive.release p).once, (exclusive.release p).busy⟩
      obtain ⟨before, other⟩ := List.mem_filter.mp held
      obtain ⟨row, old, here, waits⟩ := exclusive.waits e before
      refine ⟨row, (rows row).mpr ⟨row, old, if_neg fun same => ?_⟩, here, waits⟩
      obtain rfl := exclusive.same before mem (here.symm.trans same)
      simp at other
  | released => exact exclusive.release _
  | @reaped now =>
      refine ⟨fun e held => ?_, exclusive.once, exclusive.busy⟩
      obtain ⟨row, old, here, waits⟩ := exclusive.waits e held
      refine ⟨row, mem_reapStale.mpr ⟨row, old, if_neg fun stale => ?_⟩, here, waits⟩
      rw [running_of_isStale stale] at waits
      cases waits

/-- Rows stay, and one that has ended is not written again. -/
theorem QueueChange.endure {q q' : JobQueue P} {a : JobAction P σ} (change : QueueChange rt q a q')
    (exclusive : q.Exclusive) : Jobs.Endure q.current q'.current := by
  cases change with
  | idle | replayed | claimed | released => exact .refl _
  | inserted free =>
      exact ⟨fun job old => ⟨job, (Table.mem_insert_iff _ _ free job).mpr (.inl old), .refl job⟩⟩
  | @finished p _ _ _ _ job jobs status result mem final rows =>
      refine ⟨fun row old => ⟨_, (rows _).mpr ⟨row, old, rfl⟩, ?_⟩⟩
      split
      · rename_i here
        refine ⟨rfl, rfl, rfl, fun ended => ?_⟩
        obtain ⟨row', old', here', waits⟩ := exclusive.waits _ mem
        rw [Table.eq_of_key_eq old' old (here'.trans here.symm)] at waits
        rw [waits] at ended
        rcases ended with h | h <;> cases h
      · exact .refl row
  | reaped =>
      refine ⟨fun row old => ⟨_, mem_reapStale.mpr ⟨row, old, rfl⟩, ?_⟩⟩
      split
      · rename_i stale
        refine ⟨rfl, rfl, rfl, fun ended => ?_⟩
        rw [running_of_isStale stale] at ended
        rcases ended with h | h <;> cases h
      · exact .refl row

theorem exclusive_of_run {allowed : JobQueue P → JobAction P σ → Prop} {start : Jobs}
    {q : JobQueue P} (run : Reaches (JobAction.step c rt str) allowed (.start start) q) :
    q.Exclusive :=
  run.invariant ⟨nofun, List.nodup_nil, List.nodup_nil⟩ fun _ _ _ _ step exclusive =>
    (queueChange_of_step c rt str step).exclusive rt exclusive

/-- A job that has ended keeps its row. -/
theorem kept_of_run {q q' : JobQueue P} (exclusive : q.Exclusive) {job : ProvisioningJob}
    (mem : job ∈ q.current) (final : job.status.Final)
    (run : Reaches (JobAction.step c rt str) Any q q') : q'.Exclusive ∧ job ∈ q'.current := by
  refine run.invariant (I := fun q => q.Exclusive ∧ job ∈ q.current) ⟨exclusive, mem⟩ ?_
  rintro r a r' - step ⟨held, there⟩
  have change := queueChange_of_step c rt str step
  obtain ⟨job', mem', endures⟩ := (change.endure rt held).kept job there
  exact ⟨change.exclusive rt held, endures.ended final ▸ mem'⟩

omit [DecidableEq P] in
/-- It is not executed. -/
theorem JobQueue.Exclusive.not_executing {q : JobQueue P} (exclusive : q.Exclusive)
    {job : ProvisioningJob} (mem : job ∈ q.current) (final : job.status.Final) :
    ∀ e ∈ q.executing, e.2.id ≠ job.id := by
  intro e held same
  obtain ⟨row, there, here, waits⟩ := exclusive.waits e held
  rw [Table.eq_of_key_eq there mem (here.trans same)] at waits
  rw [waits] at final
  rcases final with h | h <;> cases h

/-- In every run, whatever transactions are abandoned: no two provisioners execute the same
job at the same time, and a job that has been committed as ended is never executed again
and keeps its row. -/
theorem jobs_execute_once {start : Jobs} {q : JobQueue P}
    (run : Reaches (JobAction.step c rt str) Any (.start start) q) :
    (∀ e ∈ q.executing, ∀ e' ∈ q.executing, e.2.id = e'.2.id → e = e') ∧
      (q.executing.map fun e => e.2.id).Nodup ∧
      ∀ job ∈ q.current, job.status.Final → ∀ q', Reaches (JobAction.step c rt str) Any q q' →
        job ∈ q'.current ∧ ∀ e ∈ q'.executing, e.2.id ≠ job.id := by
  have exclusive := exclusive_of_run c rt str run
  refine ⟨fun e mem e' mem' => exclusive.same mem mem', exclusive.once,
    fun job mem final q' more => ?_⟩
  obtain ⟨held, kept⟩ := kept_of_run c rt str exclusive mem final more
  exact ⟨kept, held.not_executing kept final⟩

/-! Outstanding requests. -/

/-- There is at most one job that waits or is executed for each type and domain. -/
def Jobs.OutstandingOnce (jobs : Jobs) : Prop :=
  ∀ a ∈ jobs, ∀ b ∈ jobs, a.status.Outstanding → b.status.Outstanding → a.jobType = b.jobType →
    ∀ domain, a.domain .null = .ok domain → b.domain .null = .ok domain → a = b

/-- No job for what is asked for has come since the lookup of an enqueuing. -/
def Undisturbed (q : JobQueue P) : JobAction P σ → Prop
  | .enqueue r age => ∀ job ∈ q.current.rows, job.status.Outstanding → job.jobType = r.jobType →
      job.domain .null = (r.name rt).map Json.string →
        ∃ seen ∈ (q.history.read age).rows, seen.id = job.id
  | _ => True

theorem about_none {domain : Json} {jobs : List ProvisioningJob}
    (h : Jobs.about domain jobs = .ok none) : ∀ job ∈ jobs, job.domain .null ≠ .ok domain := by
  induction jobs with
  | nil => exact nofun
  | cons job rest ih =>
      obtain ⟨found, here, h⟩ := ok_of_bind_ok h
      split at h
      · cases h
      · rename_i other
        intro job' mem same
        rcases List.mem_cons.mp mem with rfl | later
        · exact other (Except.ok.inj (here.symm.trans same))
        · exact ih h job' later same

theorem domain_of_payload {a b : ProvisioningJob} (same : a.payload = b.payload) (fallback : Json) :
    a.domain fallback = b.domain fallback := by
  rw [ProvisioningJob.domain, same, ProvisioningJob.domain]

theorem domain_job (r : EnqueueRequest) (name : String) :
    (r.job name).domain .null = .ok (.string name) := rfl

/-- What is outstanding was so before. -/
theorem Jobs.OutstandingOnce.of_old {jobs jobs' : Jobs} (once : jobs.OutstandingOnce)
    (old : ∀ row' ∈ jobs', row'.status.Outstanding → ∃ row ∈ jobs, row.status.Outstanding ∧
      row'.id = row.id ∧ row'.jobType = row.jobType ∧ row'.payload = row.payload) :
    jobs'.OutstandingOnce := by
  intro a ha b hb aOut bOut type domain aDomain bDomain
  obtain ⟨a₀, aOld, aWas, aId, aType, aPayload⟩ := old a ha aOut
  obtain ⟨b₀, bOld, bWas, bId, bType, bPayload⟩ := old b hb bOut
  rw [domain_of_payload aPayload] at aDomain
  rw [domain_of_payload bPayload] at bDomain
  have same := once a₀ aOld b₀ bOld aWas bWas (aType.symm.trans (type.trans bType)) domain
    aDomain bDomain
  exact Table.eq_of_key_eq ha hb (aId.trans (same ▸ bId.symm))

omit [DecidableEq P] in
/-- The lookup of an enqueuing that is not disturbed tells of all that is outstanding. -/
theorem none_of_undisturbed {q : JobQueue P} {r : EnqueueRequest} {age : Nat} {name : String}
    (calm : Undisturbed rt q (.enqueue r age : JobAction P σ)) (named : r.name rt = .ok name)
    (unasked : Jobs.about (.string name) ((q.history.read age).outstanding r.jobType) = .ok none)
    (endures : q.history.All fun jobs => Jobs.Endure jobs q.current) :
    ∀ job ∈ q.current, job.status.Outstanding → job.jobType = r.jobType →
      job.domain .null ≠ .ok (.string name) := by
  intro job mem outstanding type about
  obtain ⟨seen, there, same⟩ := calm job mem outstanding type (by rw [about, named]; rfl)
  obtain ⟨job', mem', kept⟩ := (endures.read age).kept seen there
  obtain rfl := Table.eq_of_key_eq mem' mem (kept.row.trans same)
  have waited : seen.status.Outstanding := by
    by_contra running
    have ended : seen.status.Final := by
      revert running
      cases seen.status <;> decide
    exact running (kept.ended ended ▸ outstanding)
  refine about_none unasked seen ?_ ((domain_of_payload kept.payload.symm _).trans about)
  exact List.mem_filter.mpr ⟨there, decide_eq_true ⟨kept.type.symm.trans type, waited⟩⟩

theorem QueueChange.outstandingOnce {q q' : JobQueue P} {a : JobAction P σ}
    (change : QueueChange rt q a q') (calm : Undisturbed rt q a)
    (endures : q.history.All fun jobs => Jobs.Endure jobs q.current)
    (once : q.current.OutstandingOnce) : q'.current.OutstandingOnce := by
  cases change with
  | idle | replayed | claimed | released => exact once
  | @inserted r age name free named unasked =>
      have alone := none_of_undisturbed rt calm named unasked endures
      have isNew : ∀ job, job ∈ q.current.insert (r.job name) free ↔
          job ∈ q.current ∨ job = r.job name := Table.mem_insert_iff _ _ free
      intro a ha b hb aOut bOut type domain aDomain bDomain
      rcases (isNew a).mp ha with aOld | rfl <;> rcases (isNew b).mp hb with bOld | rfl
      · exact once a aOld b bOld aOut bOut type domain aDomain bDomain
      · rw [domain_job] at bDomain
        exact absurd (aDomain.trans bDomain.symm) (alone a aOld aOut type)
      · rw [domain_job] at aDomain
        exact absurd (bDomain.trans aDomain.symm) (alone b bOld bOut type.symm)
      · rfl
  | finished mem final rows =>
      refine once.of_old fun row' new outstanding => ?_
      obtain ⟨row, old, rfl⟩ := (rows row').mp new
      split at outstanding
      · rcases outstanding with h | h <;> rcases final with h' | h' <;>
          exact absurd (h.symm.trans h') (by decide)
      · rename_i other
        rw [if_neg other]
        exact ⟨row, old, outstanding, rfl, rfl, rfl⟩
  | reaped =>
      refine once.of_old fun row' new outstanding => ?_
      obtain ⟨row, old, rfl⟩ := mem_reapStale.mp new
      refine ⟨row, old, ?_, ?_⟩
      · split at outstanding
        · rename_i stale
          exact .inr (running_of_isStale stale)
        · exact outstanding
      · split <;> exact ⟨rfl, rfl, rfl⟩

/-- As long as no enqueuing is disturbed between its lookup and its commit, there is at most
one outstanding job for each type and domain in every committed state. -/
theorem outstanding_once {start : Jobs} (once : start.OutstandingOnce) {q : JobQueue P}
    (run : Reaches (JobAction.step c rt str) (Undisturbed rt) (.start start) q) :
    q.current.OutstandingOnce := by
  refine (run.invariant (I := fun q => q.Exclusive ∧
    (q.history.All fun jobs => Jobs.Endure jobs q.current) ∧ q.current.OutstandingOnce)
    ⟨⟨nofun, List.nodup_nil, List.nodup_nil⟩, .start (.refl _), once⟩ ?_).2.2
  rintro q a q' calm step ⟨exclusive, endures, once⟩
  have change := queueChange_of_step c rt str step
  have grows := change.endure rt exclusive
  refine ⟨change.exclusive rt exclusive, ?_, change.outstandingOnce rt calm endures once⟩
  cases change with
  | idle | claimed | released => exact endures
  | replayed | inserted | finished | reaped => exact endures.grow (.refl _) .trans grows

end Queue

namespace Sample

/-- The dashboard asks for the domain to be added. -/
def request (id : Nat) : EnqueueRequest where
  jobType := .addDomain
  payload := [("domain", .string "shop.example")]
  id := id
  createdAt := id

abbrev jobStep : JobQueue String → JobAction String Unit → Option (JobQueue String) :=
  JobAction.step payloadClient runtime fun _ => "error"

def noJobs : JobQueue String := .start Table.empty

/-- The jobs by id, and who executes which of them. -/
def shown (q : JobQueue String) : List (Nat × JobStatus) × List (String × Nat) :=
  (q.current.rows.map fun job => (job.id, job.status), q.executing.map fun e => (e.1, e.2.id))

def claimFree (p : String) : JobAction String Unit := .claim p (fun _ => false) id

/-- The button is clicked twice, and the provisioner that takes the job is killed once. -/
def added : List (JobAction String Unit) := [.enqueue (request 1) 0, .enqueue (request 2) 0,
  claimFree "A", .abandon "A", claimFree "B", .finish "B" (.ok "Added shop.example") () 5 6]

def addedOnce : JobQueue String := final jobStep noJobs added

instance (q : JobQueue String) (a : JobAction String Unit) : Decidable (Undisturbed runtime q a) :=
  match a with
  | .enqueue .. => inferInstanceAs (Decidable (∀ job ∈ _, _))
  | .claim .. | .finish .. | .abandon _ | .reap _ => inferInstanceAs (Decidable True)

end Sample

/-- Both clicks look before either has committed. -/
theorem double_click_queues_twice :
    ∃ q, Reaches Sample.jobStep Any Sample.noJobs q ∧ ¬ q.current.OutstandingOnce := by
  obtain ⟨run, rows⟩ : Reaches Sample.jobStep Any Sample.noJobs (final Sample.jobStep Sample.noJobs
      [.enqueue (Sample.request 1) 0, .enqueue (Sample.request 2) 1]) ∧ _ =
        [(Sample.request 1).job "shop.example", (Sample.request 2).job "shop.example"] :=
    reaches_final (fun q => q.current.rows) (by decide +kernel) fun _ _ _ => trivial
  refine ⟨_, run, fun once => ?_⟩
  have first := once ((Sample.request 1).job "shop.example") (by rw [Table.mem_def, rows]; simp)
    ((Sample.request 2).job "shop.example") (by rw [Table.mem_def, rows]; simp)
    (.inl rfl) (.inl rfl) rfl (.string "shop.example") rfl rfl
  exact absurd (congrArg ProvisioningJob.id first) (by decide)

theorem click_after_click_collapses :
    Reaches Sample.jobStep (Undisturbed Sample.runtime) Sample.noJobs Sample.addedOnce ∧
      Sample.shown Sample.addedOnce = ([(1, .succeeded)], []) ∧
      Sample.addedOnce.current.OutstandingOnce := by
  obtain ⟨run, shown⟩ : Reaches Sample.jobStep (Undisturbed Sample.runtime) Sample.noJobs
      Sample.addedOnce ∧ Sample.shown Sample.addedOnce = ([(1, .succeeded)], []) :=
    reaches_of_guarded Sample.shown (by decide +kernel)
  exact ⟨run, shown, outstanding_once Sample.payloadClient Sample.runtime (fun _ => "error")
    (fun a mem => absurd mem (Table.not_mem_empty a)) run⟩

/-- The job is executed by one of two provisioners, and by none once it has ended. -/
theorem added_job_executes_once :
    Reaches Sample.jobStep Any Sample.noJobs Sample.addedOnce ∧
      ∃ job ∈ Sample.addedOnce.current, job.status = .succeeded ∧
        ∀ q, Reaches Sample.jobStep Any Sample.addedOnce q →
          job ∈ q.current ∧ ∀ e ∈ q.executing, e.2.id ≠ job.id := by
  obtain ⟨run, shown⟩ : Reaches Sample.jobStep Any Sample.noJobs Sample.addedOnce ∧
      (Sample.addedOnce.current.rows.map ProvisioningJob.status) = [.succeeded] :=
    reaches_final (fun q : JobQueue String => q.current.rows.map ProvisioningJob.status)
      (by decide +kernel) fun _ _ _ => trivial
  obtain ⟨job, mem, succeeded⟩ := List.mem_map.mp (shown ▸ List.mem_singleton_self _ :
    JobStatus.succeeded ∈ Sample.addedOnce.current.rows.map ProvisioningJob.status)
  exact ⟨run, job, mem, succeeded, (jobs_execute_once Sample.payloadClient Sample.runtime
    (fun _ => "error") run).2.2 job mem (.inl succeeded)⟩

end Emaild
