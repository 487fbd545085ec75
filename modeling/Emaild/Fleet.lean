import Mathlib.Logic.Function.Basic
import Emaild.Recording
import Emaild.Acceptance
import Emaild.Transition.Reaches

/-!
The service as a system of steps: requests are accepted, workers start, claim,
deliver and die, operators edit the suppression list, the domains and the
mailboxes. A step is one committed transaction, one call of the adapter or one
event in the life of a process. Every step reads the clock after the one before,
and reads it once more before it ends.
-/
namespace Emaild
open Relational

/-- A sweep or an operator sets a domain's status and host. -/
def Database.changeDomain (db : Database) (domainId : Nat) (status : DomainStatus)
    (smtpHost : Option String) : Database :=
  { db with domains := db.domains.modify domainId fun d =>
      { d with status := status, smtpHost := smtpHost } }

def Database.setMailboxActive (db : Database) (mailboxId : Nat) (active : Bool) : Database :=
  { db with mailboxes := db.mailboxes.modify mailboxId fun m => { m with active := active } }

theorem find?_changeDomain (db : Database) (domainId : Nat) (status : DomainStatus)
    (smtpHost : Option String) (id : Nat) :
    (db.changeDomain domainId status smtpHost).domains.find? id =
      if id = domainId then
        (db.domains.find? id).map fun d => { d with status := status, smtpHost := smtpHost }
      else db.domains.find? id := by
  simp only [Database.changeDomain, Table.find?_modify]

theorem find?_setMailboxActive (db : Database) (mailboxId : Nat) (active : Bool) (id : Nat) :
    (db.setMailboxActive mailboxId active).mailboxes.find? id =
      if id = mailboxId then (db.mailboxes.find? id).map fun m => { m with active := active }
      else db.mailboxes.find? id := by
  simp only [Database.setMailboxActive, Table.find?_modify]

/-- One call of `adapter.send`, with the store as the transaction that stamped
the attempt found it. -/
structure Call where
  attempt : Attempt
  store : Database
  time : Time

/-- The stamping transaction found the message's mailbox active and its domain
ready. -/
def Call.Permitted (c : Call) : Prop :=
  ∃ m mailbox domain, deliveryRow c.store c.attempt.messageId = some (m, mailbox, domain) ∧
    mailbox.active = true ∧ domain.status = .ready

/-- What a call of `adapter.send` returned. -/
structure Answer where
  messageId : Nat
  result : DeliveryResult

/-- Where a worker process is. The lists are the messages of its batch that it
has not come to yet; with none left it is back in the main loop. -/
inductive Phase
  | down
  | serving (ids : List Nat)
  | stamped (a : Attempt) (store : Database) (rest : List Nat)
  | awaiting (a : Attempt) (rest : List Nat)

/-- The messages in the hands of a worker. -/
def Phase.held : Phase → List Nat
  | .down => []
  | .serving ids => ids
  | .stamped a _ rest => a.messageId :: rest
  | .awaiting a rest => a.messageId :: rest

structure Process where
  phase : Phase
  shutdown : Bool

structure Fleet where
  db : Database
  clock : Time
  workers : String → Process
  wire : List Call
  answers : List Answer

namespace Fleet

def held (s : Fleet) (w : String) : List Nat := (s.workers w).phase.held

def setProcess (s : Fleet) (w : String) (p : Process) : Fleet :=
  { s with workers := Function.update s.workers w p }

def moveTo (s : Fleet) (w : String) (phase : Phase) : Fleet :=
  s.setProcess w { s.workers w with phase := phase }

/-- No message yet, and no worker alive. -/
structure Initial (s : Fleet) : Prop where
  messages : ∀ id, s.db.messages.find? id = none
  workers : ∀ w, (s.workers w).phase = .down
  wire : s.wire = []
  answers : s.answers = []

end Fleet

/-- The settings of an installation and the digest that its API uses. -/
structure Deployment where
  rt : Runtime
  hash : List (String × PayloadValue) → String
  margin : SafetyMargin
  bodyRetentionHours : Nat
  idempotencyTtlHours : Nat

/-- The steps. `_maintenance` is `reap` and then `purge`. -/
inductive Action
  | ingest (principal : Principal) (request : SendEmailRequest) (key : Option String)
      (draw : IngestDraw)
  | start (w : String)
  | kill (w : String)
  | requestShutdown (w : String)
  /-- The main loop ends. -/
  | stop (w : String)
  /-- The main loop logs an exception that has left `_process_batch`. -/
  | raised (w : String)
  | claim (w : String) (locked : Nat → Bool) (order : List Nat)
  | release (w : String)
  | deliver (w : String) (adapterFails : Bool)
  | send (w : String)
  | record (w : String) (result : DeliveryResult) (latencyMs : Nat) (jitter : Jitter)
      (race : Race)
  | reap (w : String)
  | purge (w : String)
  | suppress (address : String) (source : SuppressionSource) (reason : Option String)
      (projectId : Option Nat)
  | unsuppress (address : String)
  | changeDomain (domainId : Nat) (status : DomainStatus) (smtpHost : Option String)
  | setMailboxActive (mailboxId : Nat) (active : Bool)

/-- What a recording says that the adapter returned. -/
def Action.answer? : Action → Option DeliveryResult
  | .record _ result _ _ _ => some result
  | _ => none

/-- The worker that takes an action at a point of its own program. -/
def Action.worker? : Action → Option String
  | .start w | .stop w | .claim w _ _ | .release w | .deliver w _ | .send w | .record w _ _ _ _
  | .reap w | .purge w => some w
  | _ => none

/-- The worker whose program an action breaks off; the database rolls back. -/
def Action.interrupts? : Action → Option String
  | .kill w | .raised w => some w
  | _ => none

/-- A step, and the microseconds that pass before each of its clock readings. -/
structure Label where
  wait : Nat
  lapse : Nat
  action : Action

namespace Fleet
variable (D : Deployment)

/-- How the worker goes on after the first transaction of a delivery. -/
def next (store : Database) (rest : List Nat) : Opening → Phase
  | .stamped a => .stamped a store rest
  | _ => .serving rest

/-- The first transaction of `_deliver_one`, or its exception. -/
def deliver (s : Fleet) (w : String) (id : Nat) (rest : List Nat) (adapterFails : Bool)
    (now later : Time) : Fleet :=
  match openDelivery D.margin adapterFails s.db id now later with
  | .error _ => s.moveTo w (.serving [])
  | .ok (opening, db) => { s with db := db }.moveTo w (next s.db rest opening)

/-- The recording transaction. If it fails, the rest of the batch is given up. -/
def record (s : Fleet) (w : String) (a : Attempt) (rest : List Nat) (race : Race)
    (r : Recording) : Fleet :=
  let (outcome, db) := sessionScope (recordOutcome D.rt race a.messageId r) s.db
  { s with db := db, answers := s.answers ++ [Answer.mk a.messageId r.result] }.moveTo w
    (.serving (match outcome with | .ok _ => rest | .error _ => []))

/-- What an action does, if the process it concerns is at a point where it can. -/
def advance (s : Fleet) (now later : Time) : Action → Option Fleet
  | .ingest principal request key draw =>
      some { s with db := (sessionScope (ingestMessage D.rt D.hash D.idempotencyTtlHours principal
        request key draw now) s.db).2 }
  | .start w =>
      match (s.workers w).phase with
      | .down => some (s.setProcess w ⟨.serving [], false⟩)
      | _ => none
  | .kill w => some (s.moveTo w .down)
  | .requestShutdown w => some (s.setProcess w { s.workers w with shutdown := true })
  | .stop w =>
      match s.workers w with
      | ⟨.serving [], true⟩ => some (s.moveTo w .down)
      | _ => none
  | .raised w =>
      match (s.workers w).phase with
      | .down => none
      | _ => some (s.moveTo w (.serving []))
  | .claim w locked order =>
      match (s.workers w).phase with
      | .serving [] =>
          let (ids, db) := claimMessages s.db locked w batchSize now
          -- the rows come back in an order of the database's choice
          if order.Perm ids then some ({ s with db := db }.moveTo w (.serving order)) else none
      | _ => none
  | .release w =>
      match s.workers w with
      | ⟨.serving (id :: rest), true⟩ =>
          some ({ s with db := releaseClaim s.db id }.moveTo w (.serving rest))
      | _ => none
  | .deliver w adapterFails =>
      match s.workers w with
      | ⟨.serving (id :: rest), false⟩ => some (s.deliver D w id rest adapterFails now later)
      | _ => none
  | .send w =>
      match (s.workers w).phase with
      | .stamped a store rest =>
          some ({ s with wire := s.wire ++ [Call.mk a store now] }.moveTo w (.awaiting a rest))
      | _ => none
  | .record w result latencyMs jitter race =>
      match (s.workers w).phase with
      | .awaiting a rest =>
          some (s.record D w a rest race ⟨result, a.number, latencyMs, jitter, now, later⟩)
      | _ => none
  | .reap w =>
      match (s.workers w).phase with
      | .serving [] => some { s with db := reapStaleClaims s.db staleClaimAfter now later }
      | _ => none
  | .purge w =>
      match (s.workers w).phase with
      | .serving [] => some { s with db := purgeExpiredBodies s.db D.bodyRetentionHours now }
      | _ => none
  | .suppress address source reason projectId =>
      some { s with db := (sessionScope (addSuppression D.rt noRace now address source reason
        projectId) s.db).2 }
  | .unsuppress address =>
      match removeSuppression D.rt s.db address with
      | .ok (_, db) => some { s with db := db }
      | .error _ => some s
  | .changeDomain domainId status smtpHost =>
      some { s with db := s.db.changeDomain domainId status smtpHost }
  | .setMailboxActive mailboxId active =>
      some { s with db := s.db.setMailboxActive mailboxId active }

def step (s : Fleet) (l : Label) : Option Fleet :=
  let now := s.clock + l.wait
  let later := now + l.lapse
  (advance D s now later l.action).map fun t => { t with clock := later }

/-- `ingest_message` in its own transaction, with what the caller is told. -/
def serve (s : Fleet) (principal : Principal) (request : SendEmailRequest)
    (key : Option String) (draw : IngestDraw) : Except Raised IngestResult × Fleet :=
  let (result, db) := sessionScope (ingestMessage D.rt D.hash D.idempotencyTtlHours principal
    request key draw s.clock) s.db
  (result, { s with db := db })

/-- The calls of `adapter.send` for one message. -/
def calls (s : Fleet) (id : Nat) : List Call := s.wire.filter fun c => c.attempt.messageId = id

end Fleet

namespace Sample

def deployment : Deployment where
  rt := runtime
  hash _ := ""
  margin := { Binary64.nineTenths with leavesHeadroom := nineTenths_leavesHeadroom }
  bodyRetentionHours := 72
  idempotencyTtlHours := 24

def fleet (mailbox : Mailbox) : Fleet := ⟨store mailbox, 0, fun _ => ⟨.down, false⟩, [], []⟩

theorem fleet_initial (mailbox : Mailbox) : (fleet mailbox).Initial :=
  ⟨fun _ => rfl, fun _ => rfl, rfl, rfl⟩

/-- A step that takes no time, and one that takes place after a while. -/
def now (action : Action) : Label := ⟨0, 0, action⟩
def after (wait : Nat) (action : Action) : Label := ⟨wait * 1000000, 0, action⟩

/-- A letter from the only mailbox, stored under the given row id. -/
def accept (mailbox : Mailbox) (id : Nat) (recipient : String) (more : List String) : Label :=
  now (.ingest (principal mailbox) (letter recipient more) none ⟨id, toString id⟩)

def claimBy (w : String) (ids : List Nat) : Label := now (.claim w (fun _ => false) ids)

def recordBy (w : String) (result : DeliveryResult) : Label :=
  now (.record w result 40 evenJitter noRace)

/-- What a run is inspected for: a message's status and its calls of the adapter. -/
def look (id : Nat) (s : Fleet) : Option MessageStatus × Nat :=
  ((s.db.messages.find? id).map Message.status, (s.calls id).length)

/-- The provider takes the letter for everybody. -/
def accepted (recipients : List String) : DeliveryResult :=
  smtpSend recipients (.returned Table.empty "OK")

end Sample
end Emaild
