import Emaild.Domains
import Emaild.Text.Regex

/-!
Privileged work that an unprivileged process asks for. A request is a row of the queue;
the provisioner claims the oldest one, executes it and records how it has ended, all in
one transaction.
-/
namespace Emaild
open Relational Text

abbrev Jobs := Table ProvisioningJob.id

/-! Names of domains. -/

def alphanumeric : Regex := .set fun c => ('a' ≤ c && c ≤ 'z') || ('0' ≤ c && c ≤ '9')

/-- `[a-z0-9]([a-z0-9-]{0,61}[a-z0-9])?\.` -/
def domainLabel : Regex :=
  let inner := Regex.set fun c => ('a' ≤ c && c ≤ 'z') || ('0' ≤ c && c ≤ '9') || c = '-'
  .seq alphanumeric (.seq (.optional (.seq (.upTo 61 inner) alphanumeric)) (.set (· = '.')))

/-- `_DOMAIN_RE`, whose lookahead is a match of its own. -/
def domainRe (name : String) : Bool :=
  let any := Regex.set fun c => c ≠ '\n'
  let letter := Regex.set fun c => 'a' ≤ c && c ≤ 'z'
  Regex.matchesLine (.seq any (.upTo 252 any)) name &&
    Regex.matchesLine (.seq (.plus domainLabel) (.seq letter (.seq letter (.upTo 61 letter)))) name

section Names
variable (rt : Runtime)

/-- `clean_domain` -/
def cleanDomain (raw : Json) : Except Raised String := do
  let name := rstripChar '.' (rt.lower (strip (← asText (raw.orElse (.string "")))))
  if name = "" then .error (.job "A domain name is required.")
  else if startsWith "http://" name || startsWith "https://" name then
    .error (.job "Enter just the domain, with no https:// and no path.")
  else if name.toList.contains '@' then
    .error (.job "Enter the domain only, not an email address.")
  else if !domainRe name then .error (.job s!"{rt.repr name} does not look like a domain name.")
  else return name

end Names

/-! The queue. -/

/-- `(job.payload or {}).get("domain", fallback)` -/
def ProvisioningJob.domain (job : ProvisioningJob) (fallback : Json) : Except Raised Json :=
  memberOr (job.payload.orElse (.object [])) "domain" fallback

def JobStatus.Outstanding (s : JobStatus) : Prop := s = pending ∨ s = running

def JobStatus.Final (s : JobStatus) : Prop := s = succeeded ∨ s = failed

instance (s : JobStatus) : Decidable s.Outstanding := inferInstanceAs (Decidable (_ ∨ _))
instance (s : JobStatus) : Decidable s.Final := inferInstanceAs (Decidable (_ ∨ _))

namespace Jobs

/-- `STALE_CLAIM_AFTER` -/
def staleClaimAfter : Time := minutes 10

/-- The jobs of a type that wait or are being executed. -/
def outstanding (jobs : Jobs) (jobType : JobType) : List ProvisioningJob :=
  jobs.rows.filter fun job => job.jobType = jobType ∧ job.status.Outstanding

/-- The first of the jobs that is about the domain. -/
def about (domain : Json) : List ProvisioningJob → Except Raised (Option ProvisioningJob)
  | [] => return none
  | job :: rest => do
      if (← job.domain .null) = domain then return some job else about domain rest

def insertJob (rt : Runtime) (jobs : Jobs) (job : ProvisioningJob) : Except Raised Jobs :=
  if job.payload.storable rt.storesText && rt.columnTakes 40 job.requestedBy then
    match jobs.insert? job with
    | some jobs => .ok jobs
    | none => .error .integrityError
  else .error .dataError

/-- The update of `reap_stale`. -/
def isStale (now : Time) (job : ProvisioningJob) : Bool :=
  job.status = .running && job.claimedAt.any fun claimedAt => claimedAt < now - staleClaimAfter

/-- `reap_stale` -/
def reapStale (jobs : Jobs) (now : Time) : Jobs × Nat :=
  (jobs.update (isStale now) fun job => { job with status := .pending, claimedAt := none },
    jobs.count (isStale now))

/-- The order of the claim query. Rows of the same time come in any order. -/
def before (tie : Nat → Nat) (a b : ProvisioningJob) : Prop :=
  a.createdAt < b.createdAt ∨ (a.createdAt = b.createdAt ∧ tie a.id ≤ tie b.id)

instance (tie : Nat → Nat) (a b : ProvisioningJob) : Decidable (before tie a b) :=
  inferInstanceAs (Decidable (_ ∨ _))

/-- The row that `claim_one` locks: the oldest that waits and that nobody has locked. -/
def next (jobs : Jobs) (locked : Nat → Bool) (tie : Nat → Nat) : Option ProvisioningJob :=
  ((jobs.rows.filter fun job => job.status = .pending && !locked job.id).insertionSort
    (before tie)).head?

/-- The flush of `claim_one`. -/
def claim (jobs : Jobs) (id : Nat) (now : Time) : Jobs :=
  jobs.modify id fun job => { job with status := .running, claimedAt := some now }

/-- The flush of `run_one`. -/
def complete (rt : Runtime) (jobs : Jobs) (id : Nat) (status : JobStatus) (result : String)
    (now : Time) : Except Raised Jobs :=
  if rt.storesText result then .ok (jobs.modify id fun job =>
    { job with status := status, result := some result, completedAt := some now })
  else .error .dataError

end Jobs

/-- The arguments of `enqueue`, with the row's id and the time of the transaction. -/
structure EnqueueRequest where
  jobType : JobType
  payload : List (String × Json)
  requestedBy : String := "dashboard"
  id : Nat
  createdAt : Time

namespace EnqueueRequest
variable (rt : Runtime) (r : EnqueueRequest)

/-- The domain that is asked about. -/
def name : Except Raised String := cleanDomain rt ((r.payload.lookup "domain").getD (.string ""))

/-- The row of the request. -/
def job (name : String) : ProvisioningJob where
  id := r.id
  jobType := r.jobType
  status := .pending
  payload :=
    .object (("domain", .string name) :: r.payload.filter fun member => member.1 ≠ "domain")
  requestedBy := r.requestedBy
  result := none
  createdAt := r.createdAt
  claimedAt := none
  completedAt := none

end EnqueueRequest

/-- `enqueue`. Other transactions may commit after the outstanding jobs are looked up. -/
def enqueue (rt : Runtime) (r : EnqueueRequest) (others : Jobs → Jobs) :
    Tx Jobs Raised ProvisioningJob := do
  let name ← Tx.lift (r.name rt)
  let jobs := (← Tx.look).working
  let existing ← Tx.lift (Jobs.about (.string name) (jobs.outstanding r.jobType))
  Tx.interfere others
  match existing with
  | some job => return job
  | none =>
      Tx.flush fun jobs => jobs.insertJob rt (r.job name)
      return r.job name

/-! The provisioner. -/

/-- What a run of one job draws: the rows that other transactions have locked, the order of
rows of one time, its clock readings, the id of a new domain and the resolver. -/
structure JobRun where
  locked : Nat → Bool
  tie : Nat → Nat
  claimedAt : Time
  checkedAt : Time
  completedAt : Time
  domainId : Nat
  resolver : Resolver

/-- The message of a refresh. -/
def DomainRefresh.message (name : String) (refresh : DomainRefresh) : String :=
  if refresh.changed then s!"{name}: {refresh.previous.value} -> {refresh.current.value}"
  else
    let detail := if orEmpty refresh.note = "" then "no change" else orEmpty refresh.note
    s!"{name}: still {refresh.current.value} ({detail})"

section Provisioner
variable {σ : Type} (c : Mxroute.Client σ) (rt : Runtime) (str : Raised → String)

/-- `execute`, with what it leaves to be flushed. -/
def Jobs.execute (run : JobRun) (job : ProvisioningJob) (others : Nat → Database → Database) :
    Tx (World σ) Raised (Except Raised String × Unflushed) :=
  match job.jobType with
  | .addDomain => do
      let name ← Tx.lift (job.domain (.string "") >>= cleanDomain rt)
      let domain ← addDomain c rt name run.domainId others
      return (.ok (s!"Added {domain.name} (status: {domain.status.value}). " ++
        "Publish its DNS records, then verify."), .nothing)
  | .verifyDomain => do
      let name ← Tx.lift (job.domain (.string "") >>= cleanDomain rt)
      match ← Tx.lift (scalarOneOrNone ((← World.database).domainsNamed name)) with
      | none => throw (.job s!"{name} is not tracked. Add it first.")
      | some _ =>
          let (refreshed, unflushed) ← refreshDomain c rt run.resolver name run.checkedAt others
          World.meanwhile (others 1)
          return (refreshed.map (DomainRefresh.message name), unflushed)

/-- The status and the text that an execution is recorded with. Only what the provider has
refused to add is explained. -/
def jobResult (job : ProvisioningJob) :
    Except Raised String → σ → Except Raised (JobStatus × String) × σ
  | .ok text, far => (.ok (.succeeded, text), far)
  | .error (.job message), far => (.ok (.failed, message), far)
  | .error (.provider e), far =>
      if job.jobType = .addDomain then
        match job.domain (.string "") with
        | .error e => (.error e, far)
        | .ok domain =>
            let (advice, far) := addFailureMessage c e (c.str domain) far
            (.ok (.failed, s!"{e.text}\n\n{advice}"), far)
      else (.ok (.failed, e.text), far)
  | .error e, far => (.ok (.failed, s!"unexpected error: {str e}"), far)

/-- How an execution ends for the handlers, with what is left to be flushed. -/
def ending : Except Raised (Except Raised String × Unflushed) → Except Raised String × Unflushed
  | .ok ended => ended
  | .error e => (.error e, .nothing)

abbrev Database.jobs (db : Database) : Jobs := db.provisioningJobs

/-- The last flush of `run_one`. -/
def Database.completeJob (db : Database) (id : Nat) (unflushed : Unflushed) (status : JobStatus)
    (result : String) (now : Time) : Except Raised Database := do
  let db ← unflushed.flush rt db
  let jobs ← db.jobs.complete rt id status result now
  return { db with provisioningJobs := jobs }

def Database.claimJob (db : Database) (id : Nat) (now : Time) : Database :=
  { db with provisioningJobs := db.jobs.claim id now }

/-- `run_one`: whether a job was processed. -/
def runOne (run : JobRun) (others : Nat → Database → Database) : Tx (World σ) Raised Bool := do
  match (← World.database).jobs.next run.locked run.tie with
  | none => return false
  | some job =>
      World.edit fun db => db.claimJob job.id run.claimedAt
      let (outcome, unflushed) := ending (← Tx.attempt (Jobs.execute c rt run job others))
      let (status, result) ← World.call (jobResult c str job outcome)
      -- the handlers log the id of the job, which a rollback has expired
      if (← Tx.look).expired then throw .missingGreenlet
      World.flush fun db => db.completeJob rt job.id unflushed status result run.completedAt
      return true

end Provisioner
end Emaild
