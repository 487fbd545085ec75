import Emaild.Jobs
import Emaild.Mxroute.Pacing
import Emaild.Transition.Reaches

/-!
The loop of the provisioner. A cycle works through the queue with a client of its own, one
session for each job, and the client's limiter goes with it: what the clients of earlier
cycles have sent is not known to the next.
-/
namespace Emaild
open Relational Text Transition Mxroute SlidingWindow

/-- `POLL_SECONDS` -/
def pollSeconds : Time := seconds 3
/-- `REAP_EVERY_SECONDS` -/
def reapEverySeconds : Time := seconds 60

/-- Where the loop is: before a cycle, in its batch (which has done some work, or none yet),
or at its end. -/
inductive LoopPhase
  | polling
  | batch (didWork : Bool)
  | stopped

structure Provisioner (τ : Type) where
  phase : LoopPhase
  stopping : Bool
  warnedNoCredentials : Bool
  sinceReap : Time
  world : World (Link τ)

/-- What happens to the loop, and the turns that it takes: a cycle begins, a session is
opened for the next job, or one fails. A sleep is interrupted when the loop is to stop. -/
inductive ProvisionerAction
  | requestShutdown
  | meanwhile (d : Time) (f : Database → Database)
  | cycle (now : Time) (interrupted : Option Time)
  | session (run : JobRun) (others : Nat → Database → Database) (interrupted : Option Time)
  | sessionFails (interrupted : Option Time)

namespace Provisioner
variable {τ : Type} (net : Network τ) (p : Provisioner τ)

def start (db : Database) (far : τ) : Provisioner τ where
  phase := .polling
  stopping := false
  warnedNoCredentials := false
  sinceReap := 0
  world := ⟨db, {
    limiter := {
      readLimit_pos := RateLimiter.safeReadLimit_pos
      writeLimit_pos := RateLimiter.safeWriteLimit_pos }
    earlier := [], own := [], far := far }⟩

/-- The write requests that have been sent. -/
def written : List Time := p.world.far.written

/-- Some time passes. -/
def pass (d : Time) : Provisioner τ :=
  { p with world.far.far := net.sleep d p.world.far.far }

/-- `_sleep` -/
def sleep (duration : Time) (interrupted : Option Time) : Provisioner τ :=
  if p.stopping then p
  else match interrupted with
    | none => p.pass net duration
    | some d => { p.pass net (min d duration) with stopping := true }

/-- The queue is empty, or the loop is to stop. -/
def endBatch (didWork : Bool) (interrupted : Option Time) : Provisioner τ :=
  let p := { p with phase := .polling }
  if didWork then p
  else { p.sleep net pollSeconds interrupted with sinceReap := p.sinceReap - pollSeconds }

/-- `except Exception` -/
def fails (interrupted : Option Time) : Provisioner τ :=
  { p.sleep net (pollSeconds * 3) interrupted with
    phase := .polling
    sinceReap := p.sinceReap - pollSeconds * 3 }

def reap (now : Time) : Provisioner τ :=
  if p.sinceReap ≤ 0 then
    { p with
      world.db.provisioningJobs := (p.world.db.jobs.reapStale now).1
      sinceReap := reapEverySeconds }
  else p

end Provisioner

section Loop
variable {τ : Type} (net : Network τ) (rt : Runtime) (str : Raised → String) (configured : Bool)

/-- A turn of the loop. `configured` is whether the provider's credentials are set. -/
def ProvisionerAction.step (p : Provisioner τ) : ProvisionerAction → Option (Provisioner τ)
  | .requestShutdown => some { p with stopping := true }
  | .meanwhile d f => some { p.pass net d with world.db := f p.world.db }
  | .cycle now interrupted =>
      match p.phase with
      | .polling =>
          if p.stopping then some { p with phase := .stopped }
          else if !configured then
            some ({ p with warnedNoCredentials := true }.sleep net (pollSeconds * 5) interrupted)
          else
            let p := { p with warnedNoCredentials := false }.reap now
            some { p with phase := .batch false, world.far := p.world.far.renew }
      | _ => none
  | .session run others interrupted =>
      match p.phase with
      | .batch didWork =>
          if p.stopping then some (p.endBatch net didWork interrupted)
          else match sessionScope (runOne net.client rt str run others) p.world with
            | (.ok false, world) =>
                some ({ p with world := world }.endBatch net didWork interrupted)
            | (.ok true, world) => some { p with phase := .batch true, world := world }
            | (.error _, world) => some ({ p with world := world }.fails net interrupted)
      | _ => none
  | .sessionFails interrupted =>
      match p.phase with
      | .stopped => none
      | _ => some (p.fails net interrupted)

end Loop

/-! What a session does beyond the client. -/

section Far
variable {σ : Type} {c : Client σ} {asks : Request → Prop} {P Q : σ → Prop} (rt : Runtime)

/-- What lies beyond the client has a property. -/
def Far (P : σ → Prop) (w : World σ) : Prop := P w.far

theorem World.attempt_far {α : Type} {f : σ → Except Raised α × σ}
    (kept : ∀ far, P far → P (f far).2) : (World.attempt f).Keeps fun _ => Far P := by
  intro base s _ h
  rw [World.exec_attempt]
  exact ⟨kept _ h, kept _ h⟩

theorem World.call_far {α : Type} {f : σ → Except Raised α × σ}
    (kept : ∀ far, P far → P (f far).2) : (World.call f).Keeps fun _ => Far P :=
  .bind (World.attempt_far kept) fun _ => .lift _

theorem World.seen_far : (World.database (σ := σ)).Keeps fun _ => Far P := fun _ _ h h' => ⟨h, h'⟩

theorem World.beside_far (f : Database → Database) :
    (World.meanwhile (σ := σ) f).Keeps fun _ => Far P := fun _ _ h h' => ⟨h, h'⟩

theorem World.flush_far (f : Database → Except Raised Database) :
    (World.flush (σ := σ) f).Keeps fun _ => Far P := by
  intro base s h h'
  rw [World.exec_flush]
  split
  · exact ⟨h, h'⟩
  · exact ⟨h, h⟩

section Reads
variable (keeps : c.Keeps (fun r => r.method.isWrite = false) P)
include keeps

theorem refreshDomain_far (resolver : Resolver) (domainName : String) (now : Time)
    (others : Nat → Database → Database) :
    (refreshDomain c rt resolver domainName now others).Keeps fun _ => Far P := by
  refine .bind World.seen_far fun _ => .bind (.lift _) fun found => ?_
  cases found with
  | none => exact .throw _
  | some domain =>
      have asked (far : σ) : P far → P (c.getDns domainName far).2 := keeps.call rfl Client.dict
      refine .bind (World.attempt_far asked) fun answer => ?_
      split
      · exact .pure _
      · exact .throw _
      · refine .bind (.lift _) fun _ => .bind (World.beside_far _) fun _ => ?_
        refine .bind World.seen_far fun _ => ?_
        dsimp only
        split <;> exact .pure _

theorem addFailureMessage_far (e : MxrouteError) (domain : String) {far : σ} (h : P far) :
    P (addFailureMessage c e domain far).2 := by
  have asked : P (getVerificationRecord c far).2 := keeps.call rfl Client.dict h
  unfold addFailureMessage
  dsimp only
  split
  · exact h
  · exact h
  · split <;> rename_i answered <;> rw [answered] at asked <;> exact asked

theorem jobResult_far (str : Raised → String) (job : ProvisioningJob)
    (outcome : Except Raised String) {far : σ} (h : P far) :
    P (jobResult c str job outcome far).2 := by
  unfold jobResult
  split
  · exact h
  · exact h
  · split
    · split
      · exact h
      · exact addFailureMessage_far keeps _ _ h
    · exact h
  · exact h

end Reads

section Writes
variable (reads : c.Keeps (fun r => r.method.isWrite = false) P)
  (writes : c.Keeps (fun _ => True) Q) (weaker : ∀ far, Q far → P far)
include reads writes weaker

/-- A domain that is not listed is created under the stronger property. -/
theorem registerDomain_far (domainName : String) {far : σ} (h : P far)
    (creates : ∀ remote later, c.listDomains far = (.ok remote, later) →
      .string domainName ∉ remote → P later → Q later) :
    P (registerDomain c domainName far).2 := by
  have listed : P (c.listDomains far).2 := reads.call rfl Client.list h
  unfold registerDomain
  split
  · rename_i failed
    rw [failed] at listed
    exact listed
  · rename_i remote later answered
    rw [answered] at listed
    have created : P (createUnlessListed c domainName remote later).2 := by
      unfold createUnlessListed
      split
      · exact listed
      · rename_i absent
        have asked : Q (c.createDomain domainName later).2 :=
          writes.call trivial Client.dict (creates remote later answered absent listed)
        split <;> rename_i answered <;> rw [answered] at asked <;> exact weaker _ asked
    split <;> rename_i answered <;> rw [answered] at created
    · exact created
    · exact reads.call rfl Client.dict created

theorem addDomain_far (rawName : String) (id : Nat) (others : Nat → Database → Database)
    {s : Session (World σ)} (h : Far P s.committed) (h' : Far P s.working)
    (creates : scalarOneOrNone (s.working.db.domainsNamed
        (rstripChar '.' (rt.lower (strip rawName)))) = .ok none →
      ∀ remote later, c.listDomains s.working.far = (.ok remote, later) →
        .string (rstripChar '.' (rt.lower (strip rawName))) ∉ remote → P later → Q later) :
    (addDomain c rt rawName id others).Leaves (Far P) s := by
  refine .bind_ok (World.exec_database s) (.bind_lift h h' fun found looked => ?_)
  cases found with
  | some existing => exact .of_keeps (.bind (World.beside_far _) fun _ => .pure _) h h'
  | none =>
      have registered := registerDomain_far reads writes weaker
        (rstripChar '.' (rt.lower (strip rawName))) h' (creates looked)
      refine .bind ?_ fun _ => .bind (World.beside_far _) fun _ =>
        .bind (World.flush_far _) fun _ => .lift _
      rw [Tx.Leaves, World.exec_call]
      exact ⟨registered, registered⟩

end Writes
end Far

/-- The session is about to have a domain created: its job adds one that is neither tracked nor
listed by the provider. `later` is what lies beyond once the provider has listed its domains. -/
def Creates {σ : Type} (c : Client σ) (rt : Runtime) (w : World σ) (job : ProvisioningJob)
    (later : σ) : Prop :=
  job.jobType = .addDomain ∧ ∃ rawName remote,
    (job.domain (.string "") >>= cleanDomain rt) = .ok rawName ∧
      let name := rstripChar '.' (rt.lower (strip rawName))
      scalarOneOrNone (w.db.domainsNamed name) = .ok none ∧
        c.listDomains w.far = (.ok remote, later) ∧ .string name ∉ remote

section Session
variable {σ : Type} {c : Client σ} {P Q : σ → Prop} (rt : Runtime)
  (reads : c.Keeps (fun r => r.method.isWrite = false) P) (writes : c.Keeps (fun _ => True) Q)
  (weaker : ∀ far, Q far → P far)
include reads writes weaker

/-- A session keeps what its client keeps under requests that only read, if what the client keeps
under every request holds when a domain is about to be created. -/
theorem runOne_far (str : Raised → String) (run : JobRun) (others : Nat → Database → Database)
    {w : World σ} (h : P w.far)
    (creates : ∀ job later, w.db.jobs.next run.locked run.tie = some job →
      Creates c rt w job later → P later → Q later) :
    P (sessionScope (runOne c rt str run others) w).2.far := by
  refine Tx.Leaves.sessionScope (P := Far P) (.bind_ok (World.exec_database _) ?_)
  dsimp only [Session.begin]
  split
  · exact .of_keeps (.pure _) h h
  · rename_i job next
    refine .bind_ok (World.exec_edit _ _) (.bind ?_ fun ended => ?_)
    · show (Jobs.execute c rt run job others).Leaves (Far P) _
      unfold Jobs.execute
      cases type : job.jobType with
      | addDomain =>
          refine .bind_lift h h fun rawName named => .bind ?_ fun _ => .pure _
          refine addDomain_far rt reads writes weaker rawName _ _ h h
            fun looked remote later listed absent => ?_
          exact creates job later next ⟨type, rawName, remote, named, looked, listed, absent⟩
      | verifyDomain =>
          refine .of_keeps (.bind (.lift _) fun name => .bind World.seen_far fun _ =>
            .bind (.lift _) fun found => ?_) h h
          cases found with
          | none => exact .throw _
          | some domain =>
              exact .bind (refreshDomain_far rt reads _ _ _ _) fun _ =>
                .bind (World.beside_far _) fun _ => .pure _
    · refine .bind (World.call_far fun far => jobResult_far reads str job _) fun _ => ?_
      refine .bind .look fun s => ?_
      split
      · exact .bind (.throw _) fun _ => .bind (World.flush_far _) fun _ => .pure _
      · exact .bind (World.flush_far _) fun _ => .pure _

end Session

/-! The law of the loop. -/

section Law
variable {τ : Type} (net : Network τ) (rt : Runtime) (str : Raised → String) (configured : Bool)

/-- Whenever a domain is about to be created, the write requests of earlier cycles are at least
as old as a window is long. -/
def Provisioner.Unhurried (p : Provisioner τ) : ProvisionerAction → Prop
  | .session run _ _ => ∀ job later, p.world.db.jobs.next run.locked run.tie = some job →
      Creates net.client rt p.world job later → later.Settled net
  | _ => True

namespace Provisioner
variable {net} {p : Provisioner τ}

/-- The limiter of the cycle's client is right about that client, and the law holds. -/
def Paced (net : Network τ) (p : Provisioner τ) : Prop :=
  p.world.far.Paced net (safely writeLimitPerMinute)

theorem Paced.sleep (paced : p.Paced net) (duration : Time) (interrupted : Option Time) :
    (p.sleep net duration interrupted).Paced net := by
  unfold Provisioner.sleep
  split
  · exact paced
  · cases interrupted with
    | none => exact Link.Paced.sleep paced duration
    | some d => exact Link.Paced.sleep paced (min d duration)

theorem Paced.endBatch (paced : p.Paced net) (didWork : Bool) (interrupted : Option Time) :
    (p.endBatch net didWork interrupted).Paced net := by
  cases didWork with
  | true => exact paced
  | false => exact Paced.sleep (p := { p with phase := .polling }) paced pollSeconds interrupted

theorem Paced.fails (paced : p.Paced net) (interrupted : Option Time) :
    (p.fails net interrupted).Paced net := paced.sleep (pollSeconds * 3) interrupted

theorem Paced.reap (paced : p.Paced net) (now : Time) : (p.reap now).Paced net := by
  unfold Provisioner.reap
  split <;> exact paced

theorem Paced.session (paced : p.Paced net) {run : JobRun} {interrupted : Option Time}
    {others : Nat → Database → Database}
    (unhurried : Provisioner.Unhurried net rt p (.session run others interrupted)) :
    (sessionScope (runOne net.client rt str run others) p.world).2.far.Paced net
      (safely writeLimitPerMinute) :=
  runOne_far rt Network.client_reads Network.client_writes (fun _ h => h.1) str run others paced
    fun job later next creates paced => ⟨paced, unhurried job later next creates⟩

end Provisioner

theorem step_paced {p p' : Provisioner τ} {a : ProvisionerAction} (paced : p.Paced net)
    (unhurried : Provisioner.Unhurried net rt p a)
    (step : a.step net rt str configured p = some p') :
    p'.Paced net := by
  cases a with
  | requestShutdown =>
      obtain rfl := Option.some.inj step
      exact paced
  | meanwhile d f =>
      obtain rfl := Option.some.inj step
      exact Link.Paced.sleep paced d
  | cycle now interrupted =>
      dsimp only [ProvisionerAction.step] at step
      split at step
      · split at step
        · obtain rfl := Option.some.inj step
          exact paced
        · split at step
          · obtain rfl := Option.some.inj step
            exact Provisioner.Paced.sleep (p := { p with warnedNoCredentials := true }) paced
              (pollSeconds * 5) interrupted
          · obtain rfl := Option.some.inj step
            exact Link.paced_renew
              (Provisioner.Paced.reap (p := { p with warnedNoCredentials := false }) paced now)
      · cases step
  | session run others interrupted =>
      have kept := paced.session rt str unhurried
      dsimp only [ProvisionerAction.step] at step
      split at step
      · split at step
        · obtain rfl := Option.some.inj step
          exact paced.endBatch _ _
        · split at step <;> rename_i world ended <;> rw [ended] at kept <;>
            obtain rfl := Option.some.inj step
          · exact Provisioner.Paced.endBatch (p := { p with world := world }) kept _ _
          · exact kept
          · exact Provisioner.Paced.fails (p := { p with world := world }) kept _
      · cases step
  | sessionFails interrupted =>
      dsimp only [ProvisionerAction.step] at step
      split at step
      · cases step
      · obtain rfl := Option.some.inj step
        exact paced.fails _

/-- As long as no domain is about to be created while a write request of an earlier cycle
counts, no window of sixty seconds holds more than sixteen write requests. -/
theorem writes_paced {db : Database} {far : τ} {p : Provisioner τ}
    (run : Reaches (ProvisionerAction.step net rt str configured) (Provisioner.Unhurried net rt)
      (.start db far) p) : WithinOpen 16 (seconds 60) p.written := by
  have started : (Provisioner.start db far).Paced net :=
    ⟨rfl, ⟨_, le_rfl, rfl⟩, withinOpen_nil _ _⟩
  exact (run.invariant started fun _ _ _ unhurried step paced =>
    step_paced net rt str configured paced unhurried step).law

end Law

namespace Sample

/-- A connection that is lost twice, and then an answer that names a date to retry after. -/
def answerToPost : Nat → Except TransportFailure Response
  | 3 => .ok { status := 429, retryAfter := some "Wed, 21 Oct 2026 07:28:00 GMT", body := .empty }
  | _ => .error (.other "connection reset")

/-- Domains are listed at once, and none is created. -/
def resetNetwork : Network Time where
  str _ := "1"
  float _ := none
  clock := id
  sleep d t := t + max d 0
  answer r attempt t :=
    (if r.method.isWrite then answerToPost attempt
      else .ok { status := 200, body := .json (.array []) }, t)
  clock_sleep d t := add_le_add_right (le_max_left d 0) t
  clock_le_sleep d _ := le_add_of_nonneg_right (le_max_right d 0)
  clock_le_answer _ _ t := le_refl t

abbrev loopStep : Provisioner Time → ProvisionerAction → Option (Provisioner Time) :=
  ProvisionerAction.step resetNetwork runtime (fun _ => "error") true

def idleLoop : Provisioner Time :=
  .start { store mailbox with
    domains := Table.empty, mailboxes := Table.empty, apiKeyScopes := Table.empty } 0

/-- The button is clicked, again. -/
def click (n : Nat) (db : Database) : Database :=
  let request : EnqueueRequest :=
    { jobType := .addDomain, payload := [], requestedBy := "dashboard", id := n, createdAt := n }
  match db.jobs.insert? (request.job "a.io") with
  | some jobs => { db with provisioningJobs := jobs }
  | none => db

def oneJob : ProvisionerAction :=
  .session ⟨fun _ => false, id, 0, 0, 0, 7, ⟨fun _ => .absent, fun _ => .absent, fun _ => .absent,
    fun _ => .absent, fun _ => .absent⟩⟩ (fun _ => id) none

/-- A cycle for a click that comes after a while. -/
def clicked (after : Time) (n : Nat) : List ProvisionerAction :=
  [.meanwhile after (click n), .cycle 0 none, oneJob, oneJob]

def clicks : List ProvisionerAction := (List.range 6).flatMap (clicked 0)

/-- A click, and another one a minute after the first cycle. -/
def patientClicks : List ProvisionerAction := clicked 0 1 ++ clicked (seconds 60) 2

/-- Every session begins when the requests of earlier cycles do not count any more. -/
def Spaced (p : Provisioner Time) : ProvisionerAction → Prop
  | .session .. => (resetNetwork.client.listDomains p.world.far).2.Settled resetNetwork
  | _ => True

instance (p : Provisioner Time) (a : ProvisionerAction) : Decidable (Spaced p a) :=
  match a with
  | .session .. => inferInstanceAs (Decidable (Link.Settled _ _))
  | .requestShutdown | .meanwhile .. | .cycle .. | .sessionFails _ =>
      inferInstanceAs (Decidable True)

theorem unhurried_of_spaced (p : Provisioner Time) (a : ProvisionerAction) (spaced : Spaced p a) :
    Provisioner.Unhurried resetNetwork runtime p a := by
  cases a with
  | session run others interrupted =>
      rintro job later - ⟨-, rawName, remote, -, -, listed, -⟩
      rw [show later = (resetNetwork.client.listDomains p.world.far).2 by rw [listed]]
      exact spaced
  | requestShutdown | meanwhile | cycle | sessionFails => trivial

end Sample

/-- Six clicks, one after the other has failed: eighteen requests in thirty-six seconds. -/
theorem clicks_exceed_limit :
    ∃ p, Reaches Sample.loopStep Any Sample.idleLoop p ∧
      ¬ WithinOpen 16 (seconds 60) p.written := by
  obtain ⟨run, sent⟩ : Reaches Sample.loopStep Any Sample.idleLoop
      (final Sample.loopStep Sample.idleLoop Sample.clicks) ∧
        (final Sample.loopStep Sample.idleLoop Sample.clicks).written.countP
          (fun t => 0 ≤ t ∧ t < 0 + seconds 60) = 18 :=
    reaches_final (fun p : Provisioner Time => p.written.countP fun t => 0 ≤ t ∧ t < 0 + seconds 60)
      (by decide +kernel) fun _ _ _ => trivial
  refine ⟨_, run, fun within => ?_⟩
  have few := within 0
  rw [sent] at few
  exact absurd few (by decide)

theorem patient_clicks_within_limit :
    Reaches Sample.loopStep (Provisioner.Unhurried Sample.resetNetwork Sample.runtime)
        Sample.idleLoop (final Sample.loopStep Sample.idleLoop Sample.patientClicks) ∧
      (final Sample.loopStep Sample.idleLoop Sample.patientClicks).written =
        [0, seconds 2, seconds 6, seconds 66, seconds 68, seconds 72] ∧
      WithinOpen 16 (seconds 60)
        (final Sample.loopStep Sample.idleLoop Sample.patientClicks).written := by
  obtain ⟨run, sent⟩ : Reaches Sample.loopStep Sample.Spaced Sample.idleLoop
      (final Sample.loopStep Sample.idleLoop Sample.patientClicks) ∧
        (final Sample.loopStep Sample.idleLoop Sample.patientClicks).written =
          [0, seconds 2, seconds 6, seconds 66, seconds 68, seconds 72] :=
    reaches_of_guarded (fun p : Provisioner Time => p.written) (by decide +kernel)
  have unhurried := run.mono Sample.unhurried_of_spaced
  exact ⟨unhurried, sent, writes_paced Sample.resetNetwork Sample.runtime (fun _ => "error") true
    unhurried⟩

end Emaild
