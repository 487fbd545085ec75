import Emaild.Auth
import Emaild.Suppressions

/-!
Acceptance of a message: authorise, normalise, check the limits and the
suppression list, look for a replay, write. Everything after the checks is one
transaction; a request that fails leaves the committed store as it was.
-/
namespace Emaild
open Relational Text

def maxRecipients : Nat := 150
def maxMessageBytes : Nat := 52428800

/-- A request body that has passed schema validation. -/
structure SendEmailRequest where
  «from» : String
  «to» : List String
  subject : Option String := none
  html : Option String := none
  text : Option String := none
  cc : Option (List String) := none
  bcc : Option (List String) := none
  replyTo : Option String := none
  headers : Option (Dict String String) := none
  tags : Option (Dict String String) := none
  fromLength : 3 ≤ «from».length := by decide
  subjectLength : (orEmpty subject).length ≤ 998 := by decide
  hasBody : orEmpty html ≠ "" ∨ orEmpty text ≠ "" := by decide
  hasRecipient : «to» ≠ [] := by decide

namespace SendEmailRequest

def allRecipients (r : SendEmailRequest) : List String := r.to ++ r.cc.getD [] ++ r.bcc.getD []

/-- The UTF-8 size of the parts, with an allowance for the envelope. -/
def estimatedSizeBytes (r : SendEmailRequest) : Nat :=
  ([r.subject, r.html, r.text].map fun v => (orEmpty v).utf8ByteSize).sum +
    (r.allRecipients.map fun a => a.utf8ByteSize + 8).sum +
    r.from.utf8ByteSize +
    ((r.headers.map fun h =>
      (h.rows.map fun (k, v) => s!"{k}: {v}\r\n".utf8ByteSize).sum).getD 0) + 2048

end SendEmailRequest

inductive PayloadValue
  | text (s : String)
  | list (l : List String)
  | object (entries : List (String × String))
  deriving DecidableEq

/-- The fields that are present, under their wire names, keys sorted at every
level: what the canonical JSON text spells out. -/
def canonicalPayload (r : SendEmailRequest) : List (String × PayloadValue) :=
  let object (d : Dict String String) :=
    PayloadValue.object (d.rows.insertionSort fun a b => a.1 ≤ b.1)
  ([ ("bcc", r.bcc.map .list), ("cc", r.cc.map .list), ("from", some (.text r.from)),
     ("headers", r.headers.map object), ("html", r.html.map .text),
     ("reply_to", r.replyTo.map .text), ("subject", r.subject.map .text),
     ("tags", r.tags.map object), ("text", r.text.map .text), ("to", some (.list r.to))
   ] : List (String × Option PayloadValue)).filterMap fun (k, v) => v.map fun v => (k, v)

structure IngestResult where
  publicId : String
  status : String
  replayed : Bool := false
  deriving DecidableEq

/-- `_normalise_recipients`: the loop, with the addresses seen so far. -/
def normaliseRecipientsFrom (rt : Runtime) (field : String) (out : List String) :
    List String → Except Raised (List String)
  | [] => .ok out
  | raw :: values =>
      let address := rt.canonical raw
      if rt.overflows raw then .error recursionError
      else if WellShaped address then
        normaliseRecipientsFrom rt field (if address ∈ out then out else out ++ [address]) values
      else .error (.api {
        errorType := .validationError
        message := s!"Invalid recipient address: {rt.repr raw}", param := some field })

def normaliseRecipients (rt : Runtime) (values : List String) (field : String) :
    Except Raised (List String) :=
  normaliseRecipientsFrom rt field [] values

/-- What a round of the loop that goes on has found of its recipient. -/
theorem normaliseRecipientsFrom_cons {rt : Runtime} {field raw : String}
    {out values result : List String}
    (run : normaliseRecipientsFrom rt field out (raw :: values) = .ok result) :
    normaliseAddress rt raw = .ok (rt.canonical raw) ∧
      normaliseRecipientsFrom rt field
        (if rt.canonical raw ∈ out then out else out ++ [rt.canonical raw]) values =
          .ok result := by
  dsimp only [normaliseRecipientsFrom] at run
  split at run
  · cases run
  · rename_i shallow
    split at run
    · rename_i shape
      exact ⟨normaliseAddress_eq_ok.mpr ⟨by simpa using shallow, shape, rfl⟩, run⟩
    · cases run

/-- `f"{n:,}"` -/
def withCommas (n : Nat) : String :=
  let rec group : List Char → List Char
    | a :: b :: c :: d :: rest => a :: b :: c :: ',' :: group (d :: rest)
    | digits => digits
  .ofList (group (toString n).toList.reverse).reverse

def messageIdHeader (publicId domain : String) : String := s!"<{publicId}@{domain}>"

/-- `_check_suppressions` -/
def checkSuppressions (rt : Runtime) (db : Database) (recipients : List String) :
    Except Raised PUnit :=
  match findSuppressed rt db recipients with
  | .error e => .error e
  | .ok rows =>
      if rows.isEmpty then .ok ⟨⟩
      else .error (.api {
        errorType := .suppressedRecipient
        message := s!"Refusing to send to suppressed address(es): {joinSorted rows}."
        param := some "to" })

/-- `_replay_if_seen` -/
def replayIfSeen (rt : Runtime) (db : Database) (projectId : Nat) (key requestHash : String) :
    Except Raised (Option IngestResult) :=
  match db.idempotencyKeys.find? (projectId, key) with
  | none => .ok none
  | some existing =>
      if existing.requestHash ≠ requestHash then .error (.api {
        errorType := .idempotencyKeyReused
        message :=
          s!"Idempotency-Key {rt.repr key} was already used with a different request body. " ++
          "Use a new key for a different message."
        param := some "Idempotency-Key" })
      else match existing.responseBody with
        | none => .error (.api {
            errorType := .idempotencyConflict
            message :=
              s!"A request with Idempotency-Key {rt.repr key} is currently in progress. " ++
              "Retry shortly."
            param := some "Idempotency-Key" })
        | some (id, status) => .ok (some { publicId := id, status := status, replayed := true })

def Message.fits (m : Message) : Bool :=
  m.publicId.length ≤ 40 && m.fromAddress.length ≤ 320 && (orEmpty m.fromName).length ≤ 200 &&
    (orEmpty m.replyTo).length ≤ 320 && (orEmpty m.returnPath).length ≤ 320

/-- The foreign keys and the unique public identifier of a new message. -/
def Database.admits (db : Database) (m : Message) : Bool :=
  (db.projects.find? m.projectId).isSome && (db.mailboxes.find? m.mailboxId).isSome &&
    m.apiKeyId.all (fun k => (db.apiKeys.find? k).isSome) &&
    db.messages.rows.all fun other => other.publicId ≠ m.publicId

/-- Flushing a new message. -/
def Database.insertMessage (db : Database) (m : Message) : Except Raised Database :=
  if !m.fits then .error .dataError
  else if !db.admits m then .error .integrityError
  else match db.messages.insert? m with
    | some messages => .ok { db with messages := messages }
    | none => .error .integrityError

def Database.insertEvent (db : Database) (e : Event) : Except Raised Database :=
  match db.events.insert? e with
  | some events => .ok { db with events := events }
  | none => .error .integrityError

/-- What a run of `ingest_message` draws: the row id from the sequence and the
identifier from the generator. -/
structure IngestDraw where
  messageId : Nat
  ulid : String
  deriving DecidableEq

/-- The row that step 5 writes. -/
def newMessage (principal : Principal) (request : SendEmailRequest) (identity : SenderIdentity)
    (displayName : Option String) (toList ccList bccList : List String) (draw : IngestDraw)
    (now : Time) : Message where
  id := draw.messageId
  publicId := "email_" ++ draw.ulid
  projectId := principal.projectId
  mailboxId := identity.mailbox.id
  apiKeyId := some principal.apiKeyId
  status := .queued
  fromAddress := identity.mailbox.address
  fromName := displayName
  toAddresses := toList
  ccAddresses := if ccList.isEmpty then none else some ccList
  bccAddresses := if bccList.isEmpty then none else some bccList
  replyTo := request.replyTo
  subject := request.subject
  returnPath := some identity.mailbox.address
  bodyHtml := request.html
  bodyText := request.text
  bodyPurgedAt := none
  sizeBytes := request.estimatedSizeBytes
  recipientCount := toList.length + ccList.length + bccList.length
  lastAttemptAt := none
  attempts := 0
  nextAttemptAt := some now
  claimedBy := none
  claimedAt := none
  providerResponse := none
  providerLatencyMs := none
  failureClass := none
  failureCode := none
  needsReview := false
  createdAt := now
  completedAt := none

/-- The limits of step 2, and the shape of the reply address. -/
def checkLimits (rt : Runtime) (request : SendEmailRequest) (total : Nat) : Except Raised PUnit :=
  if total = 0 then .error (.api {
    errorType := .validationError, message := "At least one recipient is required."
    param := some "to" })
  else if maxRecipients < total then .error (.api {
    errorType := .validationError
    message := s!"{total} recipients exceeds the provider limit of {maxRecipients} per message."
    param := some "to" })
  else if maxMessageBytes < request.estimatedSizeBytes then .error (.api {
    errorType := .validationError
    message := s!"Message is approximately {withCommas request.estimatedSizeBytes} bytes, " ++
      s!"over the {withCommas maxMessageBytes} byte limit."
    param := some "html" })
  else if orEmpty request.replyTo = "" then .ok ⟨⟩
  else (normaliseRecipients rt [orEmpty request.replyTo] "reply_to").map fun _ => ⟨⟩

/-- Steps 1 to 3: who sends, to whom, within which limits, and to nobody on the
suppression list. -/
def checkRequest (rt : Runtime) (db : Database) (principal : Principal)
    (request : SendEmailRequest) :
    Except Raised (Option String × SenderIdentity × List String × List String × List String) := do
  let (displayName, identity) ← authorizeSender rt principal request.from
  let toList ← normaliseRecipients rt request.to "to"
  let ccList ← normaliseRecipients rt (request.cc.getD []) "cc"
  let bccList ← normaliseRecipients rt (request.bcc.getD []) "bcc"
  checkLimits rt request (toList.length + ccList.length + bccList.length)
  checkSuppressions rt db (toList ++ ccList ++ bccList)
  return (displayName, identity, toList, ccList, bccList)

/-- Step 5 up to the idempotency row: the message and its first two events. -/
def storeMessage (db : Database) (principal : Principal) (m : Message) :
    Except Raised Database := do
  let domainName ← (afterFirst '@' m.fromAddress).elim (.error .indexError) .ok
  let db ← db.insertMessage m
  let db ← db.insertEvent ⟨m.id, 1, "api.accepted",
    .accepted principal.projectName principal.keyName m.recipientCount m.sizeBytes⟩
  db.insertEvent ⟨m.id, 2, "message.queued", .queued (messageIdHeader m.publicId domainName)⟩

/-- The idempotency row of step 5, when the request carries a key. -/
def storeKey (rt : Runtime) (key : Option String) (row : String → IdempotencyKey) :
    Tx Database Raised PUnit :=
  match key with
  | none => pure ⟨⟩
  | some key => do
      if key.length > 255 ∨ (row key).requestHash.length > 64 then throw .dataError
      else match (← Tx.look).working.idempotencyKeys.insert? (row key) with
        | some keys => Tx.write fun db => { db with idempotencyKeys := keys }
        | none =>
            -- another request inserted the key first; it wins
            Tx.rollback
            throw (.api {
              errorType := .idempotencyConflict
              message := s!"A request with Idempotency-Key {rt.repr key} is currently in " ++
                "progress. Retry shortly."
              param := some "Idempotency-Key" })

/-- `ingest_message` -/
def ingestMessage (rt : Runtime) (hash : List (String × PayloadValue) → String)
    (idempotencyTtlHours : Nat) (principal : Principal) (request : SendEmailRequest)
    (idempotencyKey : Option String) (draw : IngestDraw) (now : Time) :
    Tx Database Raised IngestResult := do
  let key := idempotencyKey.filter (· ≠ "")
  let requestHash := hash (canonicalPayload request)
  let seen := (← Tx.look).working
  let (displayName, identity, toList, ccList, bccList) ←
    Tx.lift (checkRequest rt seen principal request)
  match ← Tx.lift (key.elim (.ok none) fun key =>
      replayIfSeen rt seen principal.projectId key requestHash) with
  | some result => return result
  | none =>
      let m := newMessage principal request identity displayName toList ccList bccList draw now
      let stored ← Tx.lift (storeMessage seen principal m)
      Tx.write fun _ => stored
      storeKey rt key fun key => {
        projectId := principal.projectId, key := key, requestHash := requestHash
        messageId := m.id, responseStatus := 200
        responseBody := some (m.publicId, MessageStatus.queued.value)
        expiresAt := now + hours idempotencyTtlHours }
      return { publicId := m.publicId, status := MessageStatus.queued.value }

/-! A small installation: one key of one project, scoped to one sender identity
on a ready domain. -/
namespace Sample

/-- Addresses are read as they are, unless white space surrounds them. -/
def runtime : Runtime where
  parseaddr raw := ("", if strip raw = raw then raw else "")
  overflows _ := false
  lone _ := false
  lower := id
  repr s := s!"'{s}'"
  sha256 := id

def project : Project := { id := 1, name := "shop", description := none, active := true }

def domain : Domain :=
  { id := 1, name := "shop.example", status := .ready, smtpHost := some "mx.example"
    dnsState := none }

def mailbox : Mailbox :=
  { id := 1, domainId := 1, address := "noreply@shop.example", passwordEncrypted := ""
    displayName := none, hourlyLimit := 400, active := true }

def apiKey : ApiKey :=
  { id := 1, projectId := 1, name := "web", keyHash := "em_live_1", keyPrefix := "em_live_"
    active := true, lastUsedAt := none, revokedAt := none }

def store (mailbox : Mailbox) : Database where
  projects := Table.empty.insert project rfl
  domains := Table.empty.insert domain rfl
  mailboxes := Table.empty.insert mailbox rfl
  apiKeys := Table.empty.insert apiKey rfl
  apiKeyScopes := Table.empty.insert ⟨1, mailbox.id⟩ rfl
  messages := Table.empty
  events := Table.empty
  suppressions := Table.empty
  idempotencyKeys := Table.empty

def principal (mailbox : Mailbox) : Principal :=
  { apiKeyId := 1, keyName := "web", projectId := 1, projectName := "shop"
    mailboxes := Dict.ofList [(mailbox.address, ⟨mailbox, domain⟩)] }

theorem sender_length : 3 ≤ "noreply@shop.example".length := by decide

theorem hello_written : orEmpty none ≠ "" ∨ orEmpty (some "hello") ≠ "" := by decide

def letter (recipient : String) (more : List String) : SendEmailRequest :=
  { «from» := "noreply@shop.example", «to» := recipient :: more, text := some "hello"
    hasRecipient := by simp }

example : (sessionScope (ingestMessage runtime (fun _ => "") 24 (principal mailbox)
    (letter "ann@example.net" []) none ⟨1, "A"⟩ 0) (store mailbox)).1 =
      .ok ⟨"email_A", "queued", false⟩ := by decide

end Sample

end Emaild
