import Emaild.Delivery
import Emaild.RateLimit
import Emaild.Errors
import Emaild.Timeline

/-!
The queue primitives of the delivery worker and the first transaction of a
delivery, which stamps the attempt before the wire is touched. Clock readings of
one transaction are passed in order.
-/
namespace Emaild
open Relational Text

/-- `STALE_CLAIM_AFTER` -/
def staleClaimAfter : Time := minutes 15
def batchSize : Nat := 10
def maxAttempts : Nat := 8

/-- `_BACKOFF`, in seconds. -/
def backoff : List Int := [30, 120, 600, 1800, 7200, 21600, 43200, 86400]

/-- The factor `random.uniform(0.8, 1.2)`, in millionths. -/
structure Jitter where
  millionths : Nat
  atLeast : 800000 ≤ millionths := by decide
  atMost : millionths ≤ 1200000 := by decide

/-- The delay after the given attempt; the last entry serves all later ones. -/
def backoffDelay (attempt : Nat) (jitter : Jitter) : Time :=
  backoff.getD (min attempt backoff.length - 1) 30 * jitter.millionths

/-! The queue. -/

/-- What a worker may claim at a time. -/
def Message.due (now : Time) (m : Message) : Bool :=
  m.status.Pending && m.nextAttemptAt.any fun t => t ≤ now

/-- The claim query: due rows that no other transaction has locked, earliest
first. -/
def dueMessages (db : Database) (locked : Nat → Bool) (limit : Nat) (now : Time) : List Nat :=
  let due := db.messages.rows.filter fun m => m.due now && !locked m.id
  ((due.insertionSort fun a b => a.nextAttemptAt.getD 0 ≤ b.nextAttemptAt.getD 0).take limit).map
    Message.id

def Message.claim (workerId : String) (now : Time) (m : Message) : Message :=
  { m with status := .sending, claimedBy := some workerId, claimedAt := some now }

/-- `claim_messages` -/
def claimMessages (db : Database) (locked : Nat → Bool) (workerId : String) (limit : Nat)
    (now : Time) : List Nat × Database :=
  let ids := dueMessages db locked limit now
  (ids, db.updateMessages (fun m => m.id ∈ ids) (Message.claim workerId now))

def Message.release (m : Message) : Message :=
  { m with status := .queued, claimedBy := none, claimedAt := none }

/-- `release_claim` -/
def releaseClaim (db : Database) (messageId : Nat) : Database :=
  db.updateMessages (fun m => m.id = messageId && m.status = .sending) Message.release

/-- A claim the reaper takes back. -/
def Message.stale (cutoff : Time) (m : Message) : Bool :=
  m.status = .sending && m.claimedAt.any fun t => t < cutoff

def Message.reap (now : Time) (m : Message) : Message :=
  { m with
    status := .temporarilyFailed, claimedBy := none, claimedAt := none
    nextAttemptAt := some now }

/-- `reap_stale_claims` -/
def reapStaleClaims (db : Database) (olderThan now later : Time) : Database :=
  db.updateMessages (Message.stale (now - olderThan)) (Message.reap later)

/-- A body whose retention is over. -/
def Message.expired (cutoff : Time) (m : Message) : Bool :=
  (m.completedAt.any fun t => t < cutoff) && m.bodyPurgedAt.isNone

def Message.purge (now : Time) (m : Message) : Message :=
  { m with bodyHtml := none, bodyText := none, bodyPurgedAt := some now }

/-- `purge_expired_bodies` -/
def purgeExpiredBodies (db : Database) (retentionHours : Nat) (now : Time) : Database :=
  db.updateMessages (Message.expired (now - hours retentionHours)) (Message.purge now)

section Queue
variable (db : Database) (locked : Nat → Bool) (workerId : String) (limit : Nat) (id : Nat)
  (now later : Time)

theorem find?_claimMessages :
    (claimMessages db locked workerId limit now).2.messages.find? id =
      (db.messages.find? id).map fun m =>
        if m.id ∈ dueMessages db locked limit now then m.claim workerId now else m := by
  refine (db.find?_updateMessages _ (Message.claim workerId now) (fun _ => rfl) id).trans ?_
  simp only [decide_eq_true_eq]

theorem find?_releaseClaim (messageId : Nat) :
    (releaseClaim db messageId).messages.find? id = (db.messages.find? id).map fun m =>
      if m.id = messageId ∧ m.status = .sending then m.release else m := by
  refine (db.find?_updateMessages _ Message.release (fun _ => rfl) id).trans ?_
  simp only [Bool.and_eq_true, decide_eq_true_eq]

theorem find?_reapStaleClaims (olderThan : Time) :
    (reapStaleClaims db olderThan now later).messages.find? id = (db.messages.find? id).map fun m =>
      if m.stale (now - olderThan) then m.reap later else m :=
  db.find?_updateMessages _ (Message.reap later) (fun _ => rfl) id

theorem find?_purgeExpiredBodies (retentionHours : Nat) :
    (purgeExpiredBodies db retentionHours now).messages.find? id =
      (db.messages.find? id).map fun m =>
      if m.expired (now - hours retentionHours) then m.purge now else m :=
  db.find?_updateMessages _ (Message.purge now) (fun _ => rfl) id

theorem due_of_mem_dueMessages {db : Database} {locked : Nat → Bool} {limit : Nat} {now : Time}
    {id : Nat} (h : id ∈ dueMessages db locked limit now) :
    ∃ m ∈ db.messages, m.id = id ∧ m.due now = true := by
  obtain ⟨m, hm, rfl⟩ := List.mem_map.mp h
  have listed := List.mem_of_mem_take hm
  rw [List.mem_insertionSort, List.mem_filter, Bool.and_eq_true] at listed
  exact ⟨m, listed.1, rfl, listed.2.1⟩

/-- With nothing locked and room for every row, each due row is taken. -/
theorem mem_dueMessages {db : Database} {now : Time} {m : Message} (mem : m ∈ db.messages)
    (due : m.due now = true) :
    m.id ∈ dueMessages db (fun _ => false) db.messages.rows.length now := by
  refine List.mem_map_of_mem ?_
  rw [List.take_of_length_le, List.mem_insertionSort, List.mem_filter]
  · exact ⟨mem, by simp [due]⟩
  · rw [List.length_insertionSort]
    exact List.length_filter_le ..

theorem dueMessages_nodup : (dueMessages db locked limit now).Nodup := by
  unfold dueMessages
  refine List.Nodup.sublist ((List.take_sublist _ _).map _) ?_
  rw [((List.perm_insertionSort _ _).map Message.id).nodup_iff]
  exact db.messages.nodup.sublist (List.filter_sublist.map _)

end Queue

/-! The first transaction of a delivery. -/

/-- What a worker knows of an attempt once it is stamped. The adapter that will
send it logs in to the mailbox. -/
structure Attempt where
  messageId : Nat
  number : Nat
  outbound : OutboundMessage
  host : String
  mailbox : Mailbox
  stampedAt : Time

def outboundOf (m : Message) (mailbox : Mailbox) : OutboundMessage where
  publicId := m.publicId
  envelopeFrom := if orEmpty m.returnPath = "" then mailbox.address else orEmpty m.returnPath
  fromAddress := m.fromAddress
  fromName := m.fromName
  «to» := m.toAddresses
  cc := m.ccAddresses.getD []
  bcc := m.bccAddresses.getD []
  replyTo := m.replyTo
  subject := m.subject
  html := m.bodyHtml
  text := m.bodyText

/-- The join of a message with its mailbox and its domain. -/
def deliveryRow (db : Database) (messageId : Nat) : Option (Message × Mailbox × Domain) := do
  let m ← db.messages.find? messageId
  let mailbox ← db.mailboxes.find? m.mailboxId
  let domain ← db.domains.find? mailbox.domainId
  return (m, mailbox, domain)

def Message.hold (opening : Time) (m : Message) : Message :=
  { m with
    status := .queued, claimedBy := none, claimedAt := none, nextAttemptAt := some opening }

/-- `_fail_permanently` -/
def Message.failPermanently (now : Time) (code : Option Int) (reason : String)
    (needsReview : Bool) (m : Message) : Message :=
  { m with
    status := .permanentlyRejected, completedAt := some now, failureCode := code
    providerResponse := some (clip 500 reason), needsReview := needsReview
    claimedBy := none, claimedAt := none }

def Message.stamp (now : Time) (m : Message) : Message :=
  { m with lastAttemptAt := some now, attempts := m.attempts + 1 }

/-- The attempt that a stamp of the message opens. -/
def Message.attempt (m : Message) (mailbox : Mailbox) (host : String) (now : Time) : Attempt where
  messageId := m.id
  number := m.attempts + 1
  outbound := outboundOf m mailbox
  host := host
  mailbox := mailbox
  stampedAt := now

def noSmtpHost : String := "no SMTP host known for domain"

inductive Opening
  | gone
  | held
  | undeliverable
  | stamped (a : Attempt)

/-- `_deliver_one` up to the end of its first transaction. `adapterFails` says
whether building the adapter raises. -/
def openDelivery (margin : SafetyMargin) (adapterFails : Bool) (db : Database) (messageId : Nat)
    (now later : Time) : Except Raised (Opening × Database) :=
  match deliveryRow db messageId with
  | none => .ok (.gone, db)
  | some (m, mailbox, domain) =>
      let budget := currentBudget db mailbox margin now
      if budget.exhausted then
        let opening := nextWindowOpening db mailbox.id later
        .ok (.held, (db.setMessage m.id (Message.hold opening)).emit m.id "delivery.rate_gated"
          (.rateGated budget.used budget.ceiling budget.providerCeiling opening))
      else match domain.smtpHost with
        | none =>
            .ok (.undeliverable,
              (db.setMessage m.id (Message.failPermanently now none noSmtpHost true)).emit m.id
                "delivery.failed" (.undeliverable noSmtpHost none))
        | some host =>
            if adapterFails then .error .adapterUnavailable
            else
              -- stamped and committed before the wire is touched
              .ok (.stamped (m.attempt mailbox host later),
                (db.setMessage m.id (Message.stamp later)).emit m.id "delivery.attempt"
                  (.attempt (m.attempts + 1) host))

theorem deliveryRow_eq_some {db : Database} {id : Nat} {m : Message} {mailbox : Mailbox}
    {domain : Domain} : deliveryRow db id = some (m, mailbox, domain) ↔
      db.messages.find? id = some m ∧ db.mailboxes.find? m.mailboxId = some mailbox ∧
        db.domains.find? mailbox.domainId = some domain := by
  simp only [deliveryRow, Option.bind_eq_bind, Option.bind_eq_some_iff, Option.pure_def,
    Option.some.injEq, Prod.mk.injEq]
  constructor
  · rintro ⟨_, hm, _, hmailbox, _, hdomain, rfl, rfl, rfl⟩
    exact ⟨hm, hmailbox, hdomain⟩
  · rintro ⟨hm, hmailbox, hdomain⟩
    exact ⟨m, hm, mailbox, hmailbox, domain, hdomain, rfl, rfl, rfl⟩

/-- What the first transaction of a delivery does to the store, for each way in
which it ends. -/
inductive Opens (margin : SafetyMargin) (db : Database) (id : Nat) (now later : Time) :
    Opening → Database → Prop
  | gone : Opens margin db id now later .gone db
  | held {m : Message} {opening : Time} {db' : Database}
      (found : db.messages.find? id = some m)
      (rewrites : Rewrites id (Message.hold opening) db db') :
      Opens margin db id now later .held db'
  | undeliverable {m : Message} {mailbox : Mailbox} {domain : Domain} {db' : Database}
      (found : deliveryRow db id = some (m, mailbox, domain))
      (room : (currentBudget db mailbox margin now).exhausted = false)
      (noHost : domain.smtpHost = none)
      (rewrites : Rewrites id (Message.failPermanently now none noSmtpHost true) db db') :
      Opens margin db id now later .undeliverable db'
  | stamped {m : Message} {mailbox : Mailbox} {domain : Domain} {host : String} {db' : Database}
      (found : deliveryRow db id = some (m, mailbox, domain))
      (room : (currentBudget db mailbox margin now).exhausted = false)
      (hasHost : domain.smtpHost = some host)
      (rewrites : Rewrites id (Message.stamp later) db db') :
      Opens margin db id now later (.stamped (m.attempt mailbox host later)) db'

theorem opens_of_openDelivery {margin : SafetyMargin} {adapterFails : Bool} {db db' : Database}
    {id : Nat} {now later : Time} {opening : Opening}
    (h : openDelivery margin adapterFails db id now later = .ok (opening, db')) :
    Opens margin db id now later opening db' := by
  unfold openDelivery at h
  split at h
  · cases h
    exact .gone
  · rename_i m mailbox domain found
    obtain rfl : m.id = id := Table.key_of_find? (deliveryRow_eq_some.mp found).1
    dsimp only at h
    split at h
    · cases h
      exact .held (deliveryRow_eq_some.mp found).1 (rewrites_emit ..)
    · rename_i hasRoom
      split at h
      · rename_i noHost
        cases h
        exact .undeliverable found (by simpa using hasRoom) noHost (rewrites_emit ..)
      · rename_i hasHost
        split at h
        · cases h
        · cases h
          exact .stamped found (by simpa using hasRoom) hasHost (rewrites_emit ..)

end Emaild
