import Mathlib.Algebra.Ring.Nat
import Emaild.Relational.Table
import Emaild.Numeric.Binary64
import Emaild.Text.Json

/-!
The tables of the service and the rows the modelled code reads and writes.
Times are microseconds since the epoch. A row's check constraints are fields of
the row, so a mailbox with an impossible limit cannot be built.
-/
namespace Emaild
open Relational Text

abbrev Time := Int

def seconds (n : Int) : Time := n * 1000000
def minutes (n : Int) : Time := seconds (n * 60)
def hours (n : Int) : Time := minutes (n * 60)

inductive DomainStatus
  | added | ownershipPending | dnsIncomplete | verified | ready | suspended | misconfigured
  deriving DecidableEq, Repr

def DomainStatus.value : DomainStatus → String
  | added => "added"
  | ownershipPending => "ownership_pending"
  | dnsIncomplete => "dns_incomplete"
  | verified => "verified"
  | ready => "ready"
  | suspended => "suspended"
  | misconfigured => "misconfigured"

inductive MessageStatus
  | queued | sending | acceptedByProvider | temporarilyFailed | permanentlyRejected | canceled
  deriving DecidableEq, Repr

namespace MessageStatus

def value : MessageStatus → String
  | queued => "queued"
  | sending => "sending"
  | acceptedByProvider => "accepted_by_provider"
  | temporarilyFailed => "temporarily_failed"
  | permanentlyRejected => "permanently_rejected"
  | canceled => "canceled"

/-- `TERMINAL_STATUSES` -/
def Terminal (s : MessageStatus) : Prop :=
  s = acceptedByProvider ∨ s = permanentlyRejected ∨ s = canceled

/-- The two statuses a worker may claim. -/
def Pending (s : MessageStatus) : Prop := s = queued ∨ s = temporarilyFailed

instance (s : MessageStatus) : Decidable s.Terminal := inferInstanceAs (Decidable (_ ∨ _))
instance (s : MessageStatus) : Decidable s.Pending := inferInstanceAs (Decidable (_ ∨ _))

theorem Pending.not_terminal {s : MessageStatus} (h : s.Pending) : ¬ s.Terminal := by
  rcases h with rfl | rfl <;> decide

theorem Pending.ne_sending {s : MessageStatus} (h : s.Pending) : s ≠ sending := by
  rcases h with rfl | rfl <;> decide

theorem Terminal.ne_sending {s : MessageStatus} (h : s.Terminal) : s ≠ sending := by
  rcases h with rfl | rfl | rfl <;> decide

/-- A status is exactly one of pending, in flight or terminal. -/
theorem cases_of (s : MessageStatus) : s.Pending ∨ s = sending ∨ s.Terminal := by
  cases s <;> decide

end MessageStatus

inductive FailureClass
  | authFailure | recipientRejected | senderUnauthorized | senderMismatch | rateLimited
  | providerDeferral | connection | policyRejected | messageInvalid | internal | unknown
  deriving DecidableEq, Repr

inductive SuppressionSource
  | manual | bounce | complaint
  deriving DecidableEq, Repr

structure Project where
  id : Nat
  name : String
  description : Option String
  active : Bool
  deriving DecidableEq

/-- A check as it is stored. -/
structure CheckState where
  result : String
  expected : Json := .null
  found : List String := []
  detail : Option String := none
  deriving DecidableEq

/-- A stored verification report, with each check by its name. -/
structure DnsState where
  canSend : Bool
  checks : List (String × CheckState)
  deriving DecidableEq

/-- A record to publish. Its name and value are as the provider has given them. -/
structure DnsRecord where
  type : String
  name : Json
  value : Json
  priority : String
  deriving DecidableEq

structure Domain where
  id : Nat
  name : String
  status : DomainStatus
  smtpHost : Option String
  dnsState : Option DnsState
  requiredRecords : Option (List DnsRecord) := none
  dnsCheckedAt : Option Time := none
  verificationToken : Option String := none
  deriving DecidableEq

structure Mailbox where
  id : Nat
  domainId : Nat
  address : String
  passwordEncrypted : String
  displayName : Option String
  hourlyLimit : Nat
  active : Bool
  hourlyLimitPositive : 0 < hourlyLimit := by decide
  hourlyLimitBound : hourlyLimit ≤ 400 := by decide
  deriving DecidableEq

structure ApiKey where
  id : Nat
  projectId : Nat
  name : String
  keyHash : String
  keyPrefix : String
  active : Bool
  lastUsedAt : Option Time
  revokedAt : Option Time
  deriving DecidableEq

structure ApiKeyScope where
  apiKeyId : Nat
  mailboxId : Nat
  deriving DecidableEq

structure Message where
  id : Nat
  publicId : String
  projectId : Nat
  mailboxId : Nat
  apiKeyId : Option Nat
  status : MessageStatus
  fromAddress : String
  fromName : Option String
  toAddresses : List String
  ccAddresses : Option (List String)
  bccAddresses : Option (List String)
  replyTo : Option String
  subject : Option String
  returnPath : Option String
  bodyHtml : Option String
  bodyText : Option String
  bodyPurgedAt : Option Time
  sizeBytes : Nat
  recipientCount : Nat
  lastAttemptAt : Option Time
  attempts : Nat
  nextAttemptAt : Option Time
  claimedBy : Option String
  claimedAt : Option Time
  providerResponse : Option String
  providerLatencyMs : Option Nat
  failureClass : Option FailureClass
  failureCode : Option Int
  needsReview : Bool
  createdAt : Time
  completedAt : Option Time
  deriving DecidableEq

/-- Everyone the envelope of a stored message addresses. -/
def Message.envelopeRecipients (m : Message) : List String :=
  m.toAddresses ++ m.ccAddresses.getD [] ++ m.bccAddresses.getD []

/-- The `detail` column, one constructor for each shape the code writes. -/
inductive EventDetail
  | accepted (project key : String) (recipients sizeBytes : Nat)
  | queued (messageIdHeader : String)
  | rateGated (used ourCeiling providerCeiling : Nat) (retryAt : Time)
  | attempt (attempt : Nat) (host : String)
  | answered (code : Option Int) (response : String) (accepted : Nat)
      (refused : List (String × String))
  | failed (attempt : Nat) (code : Option Int) (response : String) (failureClass : FailureClass)
      (retryable : Bool) (note : Option String) (refused : List (String × String))
      (retryInSeconds : Option Int)
  | undeliverable (reason : String) (code : Option Int)
  | suppressed (address : String) (code : Option Int) (response : String)
  deriving DecidableEq

structure Event where
  messageId : Nat
  sequence : Nat
  eventType : String
  detail : EventDetail
  deriving DecidableEq

/-- `uq_event_message_sequence` -/
def Event.position (e : Event) : Nat × Nat := (e.messageId, e.sequence)

structure Suppression where
  address : String
  source : SuppressionSource
  reason : Option String
  projectId : Option Nat
  createdAt : Time
  deriving DecidableEq

structure IdempotencyKey where
  projectId : Nat
  key : String
  requestHash : String
  messageId : Nat
  responseStatus : Nat
  responseBody : Option (String × String)
  expiresAt : Time
  deriving DecidableEq

/-- `uq_idempotency_project_key` -/
def IdempotencyKey.scope (k : IdempotencyKey) : Nat × String := (k.projectId, k.key)

/-- `uq_scope_key_mailbox` -/
def ApiKeyScope.pair (s : ApiKeyScope) : Nat × Nat := (s.apiKeyId, s.mailboxId)

inductive JobType
  | addDomain | verifyDomain
  deriving DecidableEq, Repr

inductive JobStatus
  | pending | running | succeeded | failed
  deriving DecidableEq, Repr

/-- An action that the dashboard asks for and the provisioner executes. -/
structure ProvisioningJob where
  id : Nat
  jobType : JobType
  status : JobStatus
  payload : Json
  requestedBy : String
  result : Option String
  createdAt : Time
  claimedAt : Option Time
  completedAt : Option Time
  deriving DecidableEq

structure Database where
  projects : Table Project.id
  domains : Table Domain.id
  mailboxes : Table Mailbox.id
  apiKeys : Table ApiKey.id
  apiKeyScopes : Table ApiKeyScope.pair
  messages : Table Message.id
  events : Table Event.position
  suppressions : Table Suppression.address
  idempotencyKeys : Table IdempotencyKey.scope
  provisioningJobs : Table ProvisioningJob.id := Table.empty

/-- `rate_limit_safety_margin`: above 0 and at most 0.95. -/
structure SafetyMargin extends Binary64.Positive where
  leavesHeadroom : mantissa * 100 ≤ 95 * 2 ^ exponent

theorem nineTenths_leavesHeadroom :
    Binary64.nineTenths.mantissa * 100 ≤ 95 * 2 ^ Binary64.nineTenths.exponent := by
  decide

end Emaild
