import Emaild.Auth
import Emaild.RateLimit
import Emaild.Relational.Query

/-!
The metrics of the calling project. Rates are in ten-thousandths, utilisations in
thousandths, ages in tenths of a second and percentiles in tenths of a millisecond. The
answer of an ordered query may have rows of one rank in any order, so the overview of a
store is a relation.
-/
namespace Emaild
open Relational

def FailureClass.value : FailureClass → String
  | authFailure => "auth_failure"
  | recipientRejected => "recipient_rejected"
  | senderUnauthorized => "sender_unauthorized"
  | senderMismatch => "sender_mismatch"
  | rateLimited => "rate_limited"
  | providerDeferral => "provider_deferral"
  | connection => "connection"
  | policyRejected => "policy_rejected"
  | messageInvalid => "message_invalid"
  | internal => "internal"
  | unknown => "unknown"

def FailureClass.all : List FailureClass :=
  [authFailure, recipientRejected, senderUnauthorized, senderMismatch, rateLimited,
    providerDeferral, connection, policyRejected, messageInvalid, internal, unknown]

/-- `QUEUE_AGE_WARNING`, in tenths of a second -/
def queueAgeWarning : Int := 9000

structure QueueHealth where
  pending : Nat
  sending : Nat
  oldestPendingSeconds : Option Int
  needsReview : Nat
  healthy : Bool
  reason : Option String
  deriving DecidableEq

/-- The counts of some messages, and the share of failures among the settled ones. -/
structure Volume where
  requested : Nat
  accepted : Nat
  failed : Nat
  pending : Nat
  failureRate : Nat
  deriving DecidableEq

structure VolumeSlice extends Volume where
  name : String
  deriving DecidableEq

structure Latency where
  p50 : Option Nat
  p95 : Option Nat
  max : Option Nat
  samples : Nat
  deriving DecidableEq

structure Headroom where
  sender : String
  usedThisHour : Nat
  ourCeiling : Nat
  providerCeiling : Nat
  remaining : Nat
  utilisation : Nat
  deriving DecidableEq

/-- What the caller is told. -/
structure Metrics where
  windowHours : Int
  totals : Volume
  queue : QueueHealth
  latency : Latency
  byDomain : List VolumeSlice
  failuresByClass : List (String × Nat)
  rateHeadroom : List Headroom
  deriving DecidableEq

structure Overview extends Metrics where
  byProject : List VolumeSlice

/-- The readings of the clock while an overview is built. -/
structure Readings where
  overview : Time
  queue : Time
  headroom : Time

/-- How long ago a message was accepted, rounded as its age in the queue is. -/
def Message.age (now : Time) (m : Message) : Int :=
  Binary64.roundSigned 1 (now - m.createdAt) 1000000

/-- The age of the oldest pending message. -/
def queueAge (db : Database) (now : Time) : Option Int :=
  let pending := db.messages.rows.filter fun m => m.status.Pending
  (pending.map Message.createdAt).min?.map fun oldest =>
    Binary64.roundSigned 1 (now - oldest) 1000000

/-- Whether the queue is healthy, and if not, why. -/
def queueVerdict (age : Option Int) (needsReview : Nat) : Bool × Option String :=
  if age.any (queueAgeWarning < ·) then
    (false, some (s!"oldest pending message is {Binary64.divRoundEven (age.getD 0).toNat 600} " ++
      "minutes old; worker may be stopped, rate-gated, or the provider unreachable"))
  else if needsReview ≠ 0 then
    (false, some s!"{needsReview} message(s) flagged for human review")
  else (true, none)

/-- `queue_health` -/
def queueHealth (db : Database) (now : Time) : QueueHealth :=
  let age := queueAge db now
  let needsReview := db.messages.count Message.needsReview
  { pending := db.messages.count fun m => m.status.Pending
    sending := db.messages.count fun m => m.status = .sending
    oldestPendingSeconds := age
    needsReview := needsReview
    healthy := (queueVerdict age needsReview).1
    reason := (queueVerdict age needsReview).2 }

def Volume.of (rows : List Message) : Volume :=
  let accepted := rows.countP fun m => m.status = .acceptedByProvider
  let failed := rows.countP fun m => m.status = .permanentlyRejected
  { requested := rows.length
    accepted := accepted
    failed := failed
    pending := rows.countP fun m => m.status.Pending
    failureRate := if accepted + failed = 0 then 0
      else Binary64.roundQuotient 4 failed (accepted + failed) }

/-- The messages since the cutoff, of one project or of all. -/
def recentMessages (db : Database) (cutoff : Time) (projectId : Option Nat) : List Message :=
  db.messages.rows.filter fun m => cutoff ≤ m.createdAt && projectId.all (m.projectId = ·)

/-- `_volume_by`, as a query without its order. The label is what the joins find. -/
def volumeBy (label : Message → Option String) (db : Database) (cutoff : Time)
    (projectId : Option Nat) : List VolumeSlice :=
  groupBy Prod.fst (fun name rows => { Volume.of (rows.map Prod.snd) with name := name })
    ((recentMessages db cutoff projectId).filterMap fun m => (label m).map fun name => (name, m))

def projectName (db : Database) (m : Message) : Option String :=
  (db.projects.find? m.projectId).map Project.name

def domainName (db : Database) (m : Message) : Option String := do
  let mailbox ← db.mailboxes.find? m.mailboxId
  let domain ← db.domains.find? mailbox.domainId
  return domain.name

/-- `provider_latency` -/
def providerLatency (db : Database) (cutoff : Time) (projectId : Option Nat) : Latency :=
  let samples := (recentMessages db cutoff projectId).filterMap Message.providerLatencyMs
  let sorted := samples.insertionSort (· ≤ ·)
  { p50 := Binary64.percentileCont Binary64.half sorted
    p95 := Binary64.percentileCont Binary64.ninetyFiveHundredths sorted
    max := sorted.getLast?
    samples := samples.length }

/-- The failures of each class that has any. -/
def failuresByClass (db : Database) (cutoff : Time) (projectId : Option Nat) :
    List (String × Nat) :=
  let rows := recentMessages db cutoff projectId
  (FailureClass.all.map fun c => (c.value, rows.countP fun m => m.failureClass = some c)).filter
    fun entry => entry.2 ≠ 0

def senderOf (mailbox : Mailbox) : String × Nat := (mailbox.address, mailbox.hourlyLimit)

/-- The entry of a sender identity that has made so many attempts within the hour. -/
def headroomOf (margin : SafetyMargin) (sender : String × Nat) (used : Nat) : Headroom :=
  let ceiling := max 1 (Binary64.truncMul sender.2 margin.toPositive)
  { sender := sender.1
    usedThisHour := used
    ourCeiling := ceiling
    providerCeiling := sender.2
    remaining := ceiling - used
    utilisation := Binary64.roundQuotient 3 used ceiling }

/-- The rows of the headroom query: every mailbox with its attempts since the cutoff or
with none, of which those of other projects are then left out. -/
def headroomRows (db : Database) (cutoff : Time) (projectId : Option Nat) :
    List (Mailbox × Option Message) :=
  (leftJoin (fun mailbox m => m.counted mailbox.id cutoff) db.mailboxes.rows
    db.messages.rows).filter fun row =>
      projectId.all fun p => row.2.all fun m => m.projectId = p

/-- `rate_headroom`, as a query without its order. -/
def rateHeadroom (db : Database) (margin : SafetyMargin) (now : Time) (projectId : Option Nat) :
    List Headroom :=
  groupBy (fun row => senderOf row.1)
    (fun sender rows => headroomOf margin sender (rows.countP fun row => row.2.isSome))
    (headroomRows db (now - window) projectId)

/-- `build_overview`, without the workers, which are no message data. -/
structure BuildOverview (db : Database) (margin : SafetyMargin) (clock : Readings)
    (span : Int) (projectId : Option Nat) (o : Overview) : Prop where
  windowHours : o.windowHours = span
  totals : o.totals = Volume.of (recentMessages db (clock.overview - hours span) projectId)
  queue : o.queue = queueHealth db clock.queue
  latency : o.latency = providerLatency db (clock.overview - hours span) projectId
  byProject : Descending (fun s => s.requested)
    (volumeBy (projectName db) db (clock.overview - hours span) projectId) o.byProject
  byDomain : Descending (fun s => s.requested)
    (volumeBy (domainName db) db (clock.overview - hours span) projectId) o.byDomain
  failuresByClass : o.failuresByClass =
    failuresByClass db (clock.overview - hours span) projectId
  rateHeadroom : Descending Headroom.usedThisHour
    (rateHeadroom db margin clock.headroom projectId) o.rateHeadroom

/-- `get_metrics` -/
def GetMetrics (db : Database) (margin : SafetyMargin) (clock : Readings) (principal : Principal)
    (windowHours : Int) (response : Metrics) : Prop :=
  ∃ o, BuildOverview db margin clock (max 1 (min windowHours 720)) (some principal.projectId) o ∧
    response = o.toMetrics

end Emaild
