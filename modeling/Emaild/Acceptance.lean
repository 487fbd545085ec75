import Emaild.Ingest

/-!
What acceptance does to the store. A request ends with an exception, with the
answer to an earlier request of its key, or with one new message, the first two
events of its timeline and the row of its key.
-/
namespace Emaild
open Relational Text

/-- The store after the write of one new message. -/
structure Stored (before : Database) (m : Message) (after : Database) : Prop where
  fresh : before.messages.find? m.id = none
  admitted : before.admits m = true
  messages : ∀ id, after.messages.find? id =
    if id = m.id then some m else before.messages.find? id
  suppressions : after.suppressions = before.suppressions
  mailboxes : after.mailboxes = before.mailboxes
  domains : after.domains = before.domains

/-- The same row by row: the message, events and key rows are what is new. -/
structure Grows (m : Message) (opening : List Event) (keys : List IdempotencyKey)
    (before after : Database) : Prop extends Stored before m after where
  inserted : after.messages.rows = before.messages.rows ++ [m]
  events : after.events.rows = before.events.rows ++ opening
  idempotencyKeys : after.idempotencyKeys.rows = before.idempotencyKeys.rows ++ keys
  projects : after.projects = before.projects
  apiKeys : after.apiKeys = before.apiKeys
  apiKeyScopes : after.apiKeyScopes = before.apiKeyScopes

theorem insertMessage_ok {before after : Database} {m : Message}
    (h : before.insertMessage m = .ok after) : Grows m [] [] before after := by
  unfold Database.insertMessage at h
  split at h
  · cases h
  split at h
  · cases h
  rename_i admitted
  split at h
  · rename_i messages inserted
    obtain ⟨fresh, rfl⟩ := Table.insert?_eq_some.mp inserted
    cases h
    exact {
      fresh := fresh, admitted := by simpa using admitted
      messages := Table.find?_insert _ _ fresh
      suppressions := rfl, mailboxes := rfl, domains := rfl, inserted := rfl
      events := (List.append_nil _).symm, idempotencyKeys := (List.append_nil _).symm
      projects := rfl, apiKeys := rfl, apiKeyScopes := rfl }
  · cases h

theorem insertEvent_ok {before middle after : Database} {m : Message} {opening : List Event}
    {keys : List IdempotencyKey} {e : Event} (grows : Grows m opening keys before middle)
    (h : middle.insertEvent e = .ok after) : Grows m (opening ++ [e]) keys before after := by
  unfold Database.insertEvent at h
  split at h
  · rename_i events inserted
    obtain ⟨free, rfl⟩ := Table.insert?_eq_some.mp inserted
    cases h
    exact { grows with
      events := by
        rw [← List.append_assoc, ← grows.events]
        rfl }
  · cases h

theorem Grows.withKeys {before middle : Database} {m : Message} {opening : List Event}
    {keys : Table IdempotencyKey.scope} {new : List IdempotencyKey}
    (grows : Grows m opening [] before middle)
    (rows : keys.rows = middle.idempotencyKeys.rows ++ new) :
    Grows m opening new before { middle with idempotencyKeys := keys } :=
  { grows with idempotencyKeys := by rw [rows, grows.idempotencyKeys, List.append_nil] }

/-- The first two events of a message's timeline. -/
def openingEvents (principal : Principal) (m : Message) (domainName : String) : List Event :=
  [⟨m.id, 1, "api.accepted",
      .accepted principal.projectName principal.keyName m.recipientCount m.sizeBytes⟩,
    ⟨m.id, 2, "message.queued", .queued (messageIdHeader m.publicId domainName)⟩]

theorem storeMessage_ok {before after : Database} {principal : Principal} {m : Message}
    (h : storeMessage before principal m = .ok after) :
    ∃ domainName, afterFirst '@' m.fromAddress = some domainName ∧
      Grows m (openingEvents principal m domainName) [] before after := by
  obtain ⟨domainName, known, h⟩ := ok_of_bind_ok h
  obtain ⟨first, h₁, h⟩ := ok_of_bind_ok h
  obtain ⟨second, h₂, h₃⟩ := ok_of_bind_ok h
  refine ⟨domainName, ?_, insertEvent_ok (insertEvent_ok (insertMessage_ok h₁) h₂) h₃⟩
  cases found : afterFirst '@' m.fromAddress with
  | none =>
      rw [found] at known
      cases known
  | some name =>
      rw [found] at known
      cases known
      rfl

/-- What a write of a message that fails may raise. -/
theorem storeMessage_raises {P : Raised → Prop} (db : Database)
    (principal : Principal) {m : Message}
    (data : m.fits = false → P .dataError) (integrity : P .integrityError) (index : P .indexError) :
    OnlyRaises P (storeMessage db principal m) := by
  have inserted (db : Database) : OnlyRaises P (db.insertMessage m) := by
    unfold Database.insertMessage
    split
    · rename_i long
      exact .error (data (by simpa using long))
    · split
      · exact .error integrity
      · split
        · exact .ok _
        · exact .error integrity
  have emitted (db : Database) (e : Event) : OnlyRaises P (db.insertEvent e) := by
    unfold Database.insertEvent
    split
    · exact .ok _
    · exact .error integrity
  refine .bind ?_ fun _ => .bind (inserted _) fun _ => .bind (emitted _ _) fun _ => emitted _ _
  cases afterFirst '@' m.fromAddress with
  | none => exact .error index
  | some name => exact .ok name

/-! Steps 1 to 3. -/

/-- What the checks make of a request that passes them. -/
structure Vetted (rt : Runtime) (db : Database) (principal : Principal)
    (request : SendEmailRequest) (displayName : Option String) (identity : SenderIdentity)
    (toList ccList bccList : List String) : Prop where
  authorized : authorizeSender rt principal request.from = .ok (displayName, identity)
  toNormal : normaliseRecipients rt request.to "to" = .ok toList
  ccNormal : normaliseRecipients rt (request.cc.getD []) "cc" = .ok ccList
  bccNormal : normaliseRecipients rt (request.bcc.getD []) "bcc" = .ok bccList
  limits : checkLimits rt request (toList.length + ccList.length + bccList.length) = .ok ()
  unsuppressed : checkSuppressions rt db (toList ++ ccList ++ bccList) = .ok ()

theorem checkRequest_eq_ok {rt : Runtime} {db : Database} {principal : Principal}
    {request : SendEmailRequest} {displayName : Option String} {identity : SenderIdentity}
    {toList ccList bccList : List String} :
    checkRequest rt db principal request = .ok (displayName, identity, toList, ccList, bccList) ↔
      Vetted rt db principal request displayName identity toList ccList bccList := by
  constructor
  · intro h
    obtain ⟨⟨_, _⟩, auth, h⟩ := ok_of_bind_ok h
    obtain ⟨tos, hto, h⟩ := ok_of_bind_ok h
    obtain ⟨ccs, hcc, h⟩ := ok_of_bind_ok h
    obtain ⟨bccs, hbcc, h⟩ := ok_of_bind_ok h
    obtain ⟨_, limits, h⟩ := ok_of_bind_ok h
    obtain ⟨_, unsuppressed, h⟩ := ok_of_bind_ok h
    cases h
    exact ⟨auth, hto, hcc, hbcc, limits, unsuppressed⟩
  · rintro ⟨auth, hto, hcc, hbcc, limits, unsuppressed⟩
    simp only [checkRequest, auth, hto, hcc, hbcc, limits, unsuppressed, bind, Except.bind, pure,
      Except.pure]

theorem checkLimits_ok {rt : Runtime} {request : SendEmailRequest} {total : Nat} {u : PUnit}
    (h : checkLimits rt request total = .ok u) : 1 ≤ total ∧ total ≤ maxRecipients := by
  unfold checkLimits at h
  split at h
  · cases h
  · rename_i positive
    split at h
    · cases h
    · rename_i few
      exact ⟨Nat.one_le_iff_ne_zero.mpr positive, Nat.le_of_not_lt few⟩

theorem checkSuppressions_ok {rt : Runtime} {db : Database} {recipients : List String} {u : PUnit} :
    checkSuppressions rt db recipients = .ok u ↔ ∀ a ∈ recipients, Unreported rt db a := by
  rw [← findSuppressed_eq_nil, checkSuppressions]
  cases findSuppressed rt db recipients with
  | error e => simp
  | ok rows => cases rows <;> simp

/-- What a request that passes steps 1 to 3 has shown. -/
structure Checked (rt : Runtime) (db : Database) (principal : Principal)
    (request : SendEmailRequest) (displayName : Option String) (identity : SenderIdentity)
    (recipients : List String) : Prop where
  authorized : authorizeSender rt principal request.from = .ok (displayName, identity)
  unreported : ∀ a ∈ recipients, Unreported rt db a

theorem Vetted.checked {rt : Runtime} {db : Database} {principal : Principal}
    {request : SendEmailRequest} {displayName : Option String} {identity : SenderIdentity}
    {toList ccList bccList : List String}
    (v : Vetted rt db principal request displayName identity toList ccList bccList) :
    Checked rt db principal request displayName identity (toList ++ ccList ++ bccList) :=
  ⟨v.authorized, checkSuppressions_ok.mp v.unsuppressed⟩

/-- A stored message addresses the lists it was given. -/
theorem newMessage_recipients (principal : Principal) (request : SendEmailRequest)
    (identity : SenderIdentity) (displayName : Option String)
    (toList ccList bccList : List String) (draw : IngestDraw) (now : Time) :
    (newMessage principal request identity displayName toList ccList bccList draw
      now).envelopeRecipients = toList ++ ccList ++ bccList := by
  cases ccList <;> cases bccList <;> simp [newMessage, Message.envelopeRecipients]

/-! The ends of a request. -/

/-- Writing the key adds its row and keeps every other table, or fails without a
commit. -/
theorem storeKey_exec (rt : Runtime) (key : Option String) (row : String → IdempotencyKey)
    (s : Session Database) :
    (∃ keys, keys.rows = s.working.idempotencyKeys.rows ++ key.toList.map row ∧
      (storeKey rt key row).exec s =
        (.ok ⟨⟩, { s with working := { s.working with idempotencyKeys := keys } })) ∨
    ∃ e s', (storeKey rt key row).exec s = (.error e, s') ∧ s'.committed = s.committed := by
  cases key with
  | none => exact .inl ⟨s.working.idempotencyKeys, (List.append_nil _).symm, rfl⟩
  | some key =>
      dsimp only [storeKey]
      split
      · exact .inr ⟨_, s, rfl, rfl⟩
      · rw [Tx.exec_bind_ok (Tx.exec_look s)]
        split
        · rename_i keys inserted
          obtain ⟨free, rfl⟩ := Table.insert?_eq_some.mp inserted
          exact .inl ⟨_, rfl, rfl⟩
        · exact .inr ⟨_, _, rfl, rfl⟩

section Ends
variable (rt : Runtime) (hash : List (String × PayloadValue) → String) (ttl : Nat)
  (principal : Principal) (request : SendEmailRequest) (key : Option String)
  (draw : IngestDraw) (now : Time) (db : Database)

/-- The row that step 5 writes for a key. -/
def keyRow (m : Message) (key : String) : IdempotencyKey where
  projectId := principal.projectId
  key := key
  requestHash := hash (canonicalPayload request)
  messageId := m.id
  responseStatus := 200
  responseBody := some (m.publicId, MessageStatus.queued.value)
  expiresAt := now + hours ttl

/-- How `ingest_message` in its own transaction ends, and what is committed then. -/
inductive Ends : Except Raised IngestResult → Database → Prop
  | refused (e : Raised) : Ends (.error e) db
  | replayed {k : String} {row : IdempotencyKey} {id status : String}
      (carries : key.filter (· ≠ "") = some k)
      (seen : db.idempotencyKeys.find? (principal.projectId, k) = some row)
      (same : row.requestHash = hash (canonicalPayload request))
      (answered : row.responseBody = some (id, status)) : Ends (.ok ⟨id, status, true⟩) db
  | stored {displayName : Option String} {identity : SenderIdentity}
      {toList ccList bccList : List String} {domainName : String} {m : Message}
      {after : Database}
      (vetted : Vetted rt db principal request displayName identity toList ccList bccList)
      (row : m = newMessage principal request identity displayName toList ccList bccList draw now)
      (grows : Grows m (openingEvents principal m domainName)
        ((key.filter (· ≠ "")).toList.map (keyRow hash ttl principal request now m)) db after) :
      Ends (.ok ⟨m.publicId, MessageStatus.queued.value, false⟩) after

theorem replayIfSeen_some {projectId : Nat} {k digest : String} {r : IngestResult}
    (h : replayIfSeen rt db projectId k digest = .ok (some r)) :
    ∃ row id status, db.idempotencyKeys.find? (projectId, k) = some row ∧
      row.requestHash = digest ∧ row.responseBody = some (id, status) ∧ r = ⟨id, status, true⟩ := by
  unfold replayIfSeen at h
  split at h
  · cases h
  · rename_i row found
    split at h
    · cases h
    · rename_i same
      split at h
      · cases h
      · rename_i id status answered
        cases h
        exact ⟨row, id, status, found, not_not.mp same, answered, rfl⟩

/-- Step 5: the message with its events, and the row of its key. -/
def storeAll (m : Message) : Tx Database Raised PUnit := do
  let stored ← Tx.lift (storeMessage (← Tx.look).working principal m)
  Tx.write fun _ => stored
  storeKey rt (key.filter (· ≠ "")) (keyRow hash ttl principal request now m)

/-- It grows by them, or is left as it was. -/
theorem storeAll_ends (m : Message) :
    (∃ after domainName,
      sessionScope (storeAll rt hash ttl principal request key now m) db = (.ok ⟨⟩, after) ∧
      Grows m (openingEvents principal m domainName)
        ((key.filter (· ≠ "")).toList.map (keyRow hash ttl principal request now m)) db after) ∨
    ∃ e, sessionScope (storeAll rt hash ttl principal request key now m) db = (.error e, db) := by
  unfold sessionScope storeAll
  rw [Tx.exec_bind_ok (Tx.exec_look _), Tx.exec_bind, Tx.exec_lift]
  dsimp only [Session.begin]
  cases store : storeMessage db principal m with
  | error e => exact .inr ⟨e, rfl⟩
  | ok stored =>
      obtain ⟨domainName, _, grows⟩ := storeMessage_ok store
      dsimp only
      rw [Tx.exec_bind_ok (Tx.exec_write _ _)]
      rcases storeKey_exec rt (key.filter (· ≠ "")) (keyRow hash ttl principal request now m)
        ⟨db, stored, false⟩ with ⟨keys, rows, done⟩ | ⟨e, s', failed, same⟩
      · rw [done]
        exact .inl ⟨_, domainName, rfl, grows.withKeys rows⟩
      · rw [failed]
        exact .inr ⟨e, congrArg _ same⟩

theorem storeAll_ok {m : Message} {after : Database} {u : PUnit}
    (h : sessionScope (storeAll rt hash ttl principal request key now m) db = (.ok u, after)) :
    ∃ domainName, Grows m (openingEvents principal m domainName)
      ((key.filter (· ≠ "")).toList.map (keyRow hash ttl principal request now m)) db after := by
  rcases storeAll_ends rt hash ttl principal request key now db m with
    ⟨_, domainName, done, grows⟩ | ⟨e, failed⟩
  · cases done.symm.trans h
    exact ⟨domainName, grows⟩
  · cases failed.symm.trans h

theorem storeAll_error {m : Message} {after : Database} {e : Raised}
    (h : sessionScope (storeAll rt hash ttl principal request key now m) db = (.error e, after)) :
    after = db := by
  rcases storeAll_ends rt hash ttl principal request key now db m with
    ⟨_, _, done, _⟩ | ⟨e', failed⟩
  · cases done.symm.trans h
  · cases failed.symm.trans h
    rfl

theorem storeAll_error_of_message {m : Message} {e : Raised}
    (store : storeMessage db principal m = .error e) :
    sessionScope (storeAll rt hash ttl principal request key now m) db = (.error e, db) := by
  unfold sessionScope storeAll
  rw [Tx.exec_bind_ok (Tx.exec_look _), Tx.exec_bind, Tx.exec_lift]
  dsimp only [Session.begin]
  rw [store]

/-- What becomes of the key depends on the rows of keys alone. -/
theorem storeKey_outcome (row : String → IdempotencyKey) {s s' : Session Database}
    (same : s.working.idempotencyKeys = s'.working.idempotencyKeys) :
    ((storeKey rt key row).exec s).1 = ((storeKey rt key row).exec s').1 := by
  cases key with
  | none => rfl
  | some k =>
      dsimp only [storeKey]
      split
      · rfl
      · rw [Tx.exec_bind_ok (Tx.exec_look s), Tx.exec_bind_ok (Tx.exec_look s'), same]
        split <;> rfl

theorem sessionScope_fst {α : Type} (x : Tx Database Raised α) (db : Database) :
    (sessionScope x db).1 = (x.exec (.begin db)).1 := by
  unfold sessionScope
  split <;> rename_i run <;> rw [run]

/-- A key that fails on its own fails the whole of step 5. -/
theorem storeAll_error_of_key {m : Message} {stored : Database} {e : Raised}
    (store : storeMessage db principal m = .ok stored)
    (fails : (sessionScope (storeKey rt (key.filter (· ≠ ""))
      (keyRow hash ttl principal request now m)) db).1 = .error e) :
    sessionScope (storeAll rt hash ttl principal request key now m) db = (.error e, db) := by
  obtain ⟨_, _, grows⟩ := storeMessage_ok store
  have sameKeys : stored.idempotencyKeys = db.idempotencyKeys :=
    Table.eq_of_rows (by rw [grows.idempotencyKeys, List.append_nil])
  have outcome : (sessionScope (storeAll rt hash ttl principal request key now m) db).1 =
      .error e := by
    rw [sessionScope_fst] at fails ⊢
    rw [← fails]
    unfold storeAll
    rw [Tx.exec_bind_ok (Tx.exec_look _), Tx.exec_bind, Tx.exec_lift]
    dsimp only [Session.begin]
    rw [store]
    dsimp only
    rw [Tx.exec_bind_ok (Tx.exec_write _ _)]
    exact storeKey_outcome rt _ _ sameKeys
  rcases run : sessionScope (storeAll rt hash ttl principal request key now m) db with ⟨r, after⟩
  rw [run] at outcome
  obtain rfl : r = .error e := outcome
  rw [storeAll_error rt hash ttl principal request key now db run]

/-- The steps of `ingest_message` in their order. -/
theorem ingestMessage_eq :
    sessionScope (ingestMessage rt hash ttl principal request key draw now) db =
      match checkRequest rt db principal request with
      | .error e => (.error e, db)
      | .ok (displayName, identity, toList, ccList, bccList) =>
          match (key.filter (· ≠ "")).elim (.ok none) fun k =>
            replayIfSeen rt db principal.projectId k (hash (canonicalPayload request)) with
          | .error e => (.error e, db)
          | .ok (some r) => (.ok r, db)
          | .ok none =>
              let m := newMessage principal request identity displayName toList ccList bccList draw
                now
              let run := sessionScope (storeAll rt hash ttl principal request key now m) db
              (run.1.map fun _ => ⟨m.publicId, MessageStatus.queued.value, false⟩, run.2) := by
  unfold sessionScope ingestMessage storeAll keyRow
  rw [Tx.exec_bind_ok (Tx.exec_look _), Tx.exec_bind, Tx.exec_lift]
  dsimp only [Session.begin]
  cases checkRequest rt db principal request with
  | error e => rfl
  | ok parts =>
  obtain ⟨displayName, identity, toList, ccList, bccList⟩ := parts
  dsimp only
  rw [Tx.exec_bind, Tx.exec_lift]
  generalize (key.filter (· ≠ "")).elim (Except.ok none) (fun key =>
    replayIfSeen rt db principal.projectId key (hash (canonicalPayload request))) = replay
  rcases replay with e | (_ | r)
  · rfl
  · dsimp only
    rw [Tx.exec_bind_ok (Tx.exec_look _)]
    dsimp only
    rw [Tx.exec_bind, Tx.exec_bind, Tx.exec_lift]
    cases storeMessage db principal (newMessage principal request identity displayName toList
        ccList bccList draw now) with
    | error e => rfl
    | ok stored =>
        dsimp only
        rw [Tx.exec_bind_ok (Tx.exec_write _ _), Tx.exec_bind_ok (Tx.exec_write _ _), Tx.exec_bind]
        generalize (storeKey rt _ _).exec _ = finish
        obtain ⟨e | u, s'⟩ := finish
        · rfl
        · rfl
  · rfl

theorem ingestMessage_ends :
    let run := sessionScope (ingestMessage rt hash ttl principal request key draw now) db
    Ends rt hash ttl principal request key draw now db run.1 run.2 := by
  dsimp only
  rw [ingestMessage_eq]
  cases checks : checkRequest rt db principal request with
  | error e => exact .refused e
  | ok parts =>
  obtain ⟨displayName, identity, toList, ccList, bccList⟩ := parts
  dsimp only
  cases replay : (key.filter (· ≠ "")).elim (Except.ok none) fun key =>
    replayIfSeen rt db principal.projectId key (hash (canonicalPayload request)) with
  | error e => exact .refused e
  | ok seen =>
  cases seen with
  | some r =>
      cases carried : key.filter (· ≠ "") with
      | none =>
          rw [carried] at replay
          cases replay
      | some k =>
          rw [carried] at replay
          obtain ⟨row, id, status, found, same, answered, rfl⟩ := replayIfSeen_some rt db replay
          exact .replayed carried found same answered
  | none =>
      dsimp only
      rcases run : sessionScope (storeAll rt hash ttl principal request key now
        (newMessage principal request identity displayName toList ccList bccList draw now)) db
        with ⟨e | u, after⟩
      · rw [storeAll_error rt hash ttl principal request key now db run]
        exact .refused e
      · obtain ⟨domainName, grows⟩ := storeAll_ok rt hash ttl principal request key now db run
        exact .stored (checkRequest_eq_ok.mp checks) rfl grows

end Ends

/-- A request that stores a message: what it passed, the row, and the store. -/
structure Accepted (rt : Runtime) (principal : Principal) (request : SendEmailRequest)
    (draw : IngestDraw) (now : Time) (before after : Database) (m : Message) : Prop where
  checked : ∃ displayName identity,
    Checked rt before principal request displayName identity m.envelopeRecipients ∧
    m.mailboxId = identity.mailbox.id
  fresh : m.status = .queued ∧ m.attempts = 0 ∧ m.lastAttemptAt = none ∧
    m.nextAttemptAt = some now ∧ m.claimedBy = none ∧ m.claimedAt = none ∧
    m.completedAt = none ∧ m.bodyPurgedAt = none
  body : m.bodyHtml = request.html ∧ m.bodyText = request.text
  drawn : m.id = draw.messageId
  stored : Stored before m after

/-- `ingest_message` in its own transaction either leaves the committed store as
it was or accepts one new message. -/
theorem ingestMessage_cases (rt : Runtime) (hash : List (String × PayloadValue) → String)
    (ttl : Nat) (principal : Principal) (request : SendEmailRequest) (key : Option String)
    (draw : IngestDraw) (now : Time) (db : Database) :
    (sessionScope (ingestMessage rt hash ttl principal request key draw now) db).2 = db ∨
      ∃ m, Accepted rt principal request draw now db
        (sessionScope (ingestMessage rt hash ttl principal request key draw now) db).2 m := by
  have ends := ingestMessage_ends rt hash ttl principal request key draw now db
  dsimp only at ends
  generalize sessionScope (ingestMessage rt hash ttl principal request key draw now) db = run at *
  obtain ⟨result, after⟩ := run
  cases ends with
  | refused => exact .inl rfl
  | replayed => exact .inl rfl
  | @stored displayName identity toList ccList bccList _ m _ vetted row grows =>
      subst row
      exact .inr ⟨_, {
        checked := ⟨displayName, identity, (newMessage_recipients ..).symm ▸ vetted.checked, rfl⟩
        fresh := ⟨rfl, rfl, rfl, rfl, rfl, rfl, rfl, rfl⟩
        body := ⟨rfl, rfl⟩
        drawn := rfl
        stored := grows.toStored }⟩

/-! All or nothing. -/

/-- A message as the queue expects it, from a sender that the principal may use. -/
structure Message.Queued (principal : Principal) (m : Message) : Prop where
  status : m.status = .queued
  attempts : m.attempts = 0
  due : m.nextAttemptAt ≠ none
  project : m.projectId = principal.projectId
  sender : ∃ address identity, principal.mailboxes.get? address = some identity ∧
    identity.mailbox.active = true ∧ identity.domain.status = .ready ∧
    m.mailboxId = identity.mailbox.id ∧ m.fromAddress = identity.mailbox.address ∧
    m.returnPath = some identity.mailbox.address
  counted : m.recipientCount =
    m.toAddresses.length + (m.ccAddresses.getD []).length + (m.bccAddresses.getD []).length
  addressed : 1 ≤ m.recipientCount ∧ m.recipientCount ≤ 150

/-- One message is committed under the given identifier, with two events and at
most one key row, and nothing else. -/
def CommitsOne (principal : Principal) (publicId : String) (before after : Database) : Prop :=
  ∃ m opening keys, Grows m opening keys before after ∧ m.Queued principal ∧
    m.publicId = publicId ∧ opening.map Event.position = [(m.id, 1), (m.id, 2)] ∧
    keys.length ≤ 1 ∧ ∀ k ∈ keys, k.messageId = m.id

theorem newMessage_queued {rt : Runtime} {db : Database} {principal : Principal}
    {request : SendEmailRequest} {displayName : Option String} {identity : SenderIdentity}
    {toList ccList bccList : List String}
    (v : Vetted rt db principal request displayName identity toList ccList bccList)
    (draw : IngestDraw) (now : Time) :
    (newMessage principal request identity displayName toList ccList bccList draw
      now).Queued principal := by
  obtain ⟨⟨address, known⟩, active, ready⟩ := authorizeSender_ok v.authorized
  exact {
    status := rfl, attempts := rfl, project := rfl
    due := by simp [newMessage]
    sender := ⟨address, identity, known, active, ready, rfl, rfl, rfl⟩
    counted := by cases ccList <;> cases bccList <;> rfl
    addressed := checkLimits_ok v.limits }

/-- A request raises or replays and leaves the committed store unchanged, or commits
one message and answers with its identifier. -/
theorem ingestMessage_all_or_nothing (rt : Runtime) (hash : List (String × PayloadValue) → String)
    (ttl : Nat) (principal : Principal) (request : SendEmailRequest) (key : Option String)
    (draw : IngestDraw) (now : Time) (db : Database) :
    let run := sessionScope (ingestMessage rt hash ttl principal request key draw now) db
    (∃ e, run = (.error e, db)) ∨ (∃ r, r.replayed = true ∧ run = (.ok r, db)) ∨
      ∃ r, r.replayed = false ∧ run.1 = .ok r ∧ CommitsOne principal r.publicId db run.2 := by
  have ends := ingestMessage_ends rt hash ttl principal request key draw now db
  dsimp only at ends ⊢
  generalize sessionScope (ingestMessage rt hash ttl principal request key draw now) db = run at *
  obtain ⟨result, after⟩ := run
  cases ends with
  | refused e => exact .inl ⟨e, rfl⟩
  | replayed => exact .inr (.inl ⟨_, rfl, rfl⟩)
  | @stored _ _ _ _ _ _ m _ vetted row grows =>
      have queued : m.Queued principal := row ▸ newMessage_queued vetted draw now
      refine .inr (.inr ⟨_, rfl, rfl, m, _, _, grows, queued, rfl, rfl, ?_, ?_⟩)
      · cases key.filter (· ≠ "") with
        | none => exact Nat.zero_le 1
        | some k => exact Nat.le_refl 1
      · intro k mem
        obtain ⟨_, _, rfl⟩ := List.mem_map.mp mem
        rfl

end Emaild
