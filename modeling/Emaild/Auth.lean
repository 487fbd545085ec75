import Emaild.Errors
import Emaild.Models

/-!
Authentication and authorisation. A principal carries the sender identities its
key is scoped to as they were read when the key was resolved; whether one of
them may send is decided on that reading.
-/
namespace Emaild
open Relational Text

/-- A mailbox with the domain it was loaded with. -/
structure SenderIdentity where
  mailbox : Mailbox
  domain : Domain
  deriving DecidableEq

structure Principal where
  apiKeyId : Nat
  keyName : String
  projectId : Nat
  projectName : String
  mailboxes : Dict String SenderIdentity

def Principal.allowedAddresses (p : Principal) : List String := p.mailboxes.rows.map Prod.fst

def authenticationError (message : String) : Raised :=
  .api { errorType := .authenticationError, message := message }

/-- `LAST_USED_RESOLUTION` -/
def lastUsedResolution : Time := minutes 1

/-- `_touch_last_used` -/
def touchLastUsed (now : Time) (db : Database) (key : ApiKey) : Database :=
  if key.lastUsedAt.all fun previous => now - previous > lastUsedResolution then
    { db with apiKeys := db.apiKeys.modify key.id fun k => { k with lastUsedAt := some now } }
  else db

/-- The mailboxes of a key's scopes, each with its domain, by address. -/
def scopedMailboxes (db : Database) (key : ApiKey) : Dict String SenderIdentity :=
  let mailboxIds := (db.apiKeyScopes.rows.filter fun s => s.apiKeyId = key.id).map
    ApiKeyScope.mailboxId
  let rows := db.mailboxes.rows.filter fun m => m.id ∈ mailboxIds
  .ofList (rows.filterMap fun m =>
    (db.domains.find? m.domainId).map fun d => (m.address, ⟨m, d⟩))

/-- `resolve_principal`: the lookup is by digest, which is unique. -/
def resolvePrincipal (rt : Runtime) (now : Time) (db : Database) (presentedKey : String) :
    Except Raised (Principal × Database) :=
  match db.apiKeys.rows.find? fun k => k.keyHash = rt.sha256 presentedKey with
  | none => .error (authenticationError "Invalid API key.")
  | some key =>
      if key.revokedAt.isSome ∨ key.active = false then
        .error (authenticationError "Invalid API key.")
      else match db.projects.find? key.projectId with
        | none => .error .noResultFound
        | some project =>
            if project.active = false then .error (authenticationError "Invalid API key.")
            else .ok (
              { apiKeyId := key.id, keyName := key.name
                projectId := project.id, projectName := project.name
                mailboxes := scopedMailboxes db key },
              touchLastUsed now db key)

/-- A presented key is accepted for an active key row that is not revoked, and
only the time of its last use is written. -/
theorem resolvePrincipal_ok {rt : Runtime} {now : Time} {db db' : Database} {token : String}
    {principal : Principal} (h : resolvePrincipal rt now db token = .ok (principal, db')) :
    ∃ key ∈ db.apiKeys, key.keyHash = rt.sha256 token ∧ key.revokedAt = none ∧
      key.active = true ∧ principal.keyName = key.name ∧ db' = touchLastUsed now db key := by
  unfold resolvePrincipal at h
  split at h
  · cases h
  · rename_i key found
    split at h
    · cases h
    · rename_i standing
      push Not at standing
      split at h
      · cases h
      · split at h
        · cases h
        · cases h
          exact ⟨key, List.mem_of_find?_eq_some found, by simpa using List.find?_some found,
            by simpa using standing.1, by simpa using standing.2, rfl, rfl⟩

/-- `parse_from_address` -/
def parseFromAddress (rt : Runtime) (value : String) : Except Raised (Option String × String) :=
  let address := rt.canonical value
  if rt.overflows value then .error recursionError
  else if WellShaped address then
    let name := strip (rt.parseaddr value).1
    .ok (if name = "" then none else some name, address)
  else .error (.api {
    errorType := .authorizationError
    message := s!"Could not parse a valid sender address from {rt.repr value}. " ++
      "Use 'noreply@example.com' or 'Acme <noreply@example.com>'."
    param := some "from" })

theorem parseFromAddress_eq_ok {rt : Runtime} {value address : String} {name : Option String} :
    parseFromAddress rt value = .ok (name, address) ↔
      rt.overflows value = false ∧ WellShaped (rt.canonical value) ∧ rt.canonical value = address ∧
        (if strip (rt.parseaddr value).1 = "" then none
          else some (strip (rt.parseaddr value).1)) = name := by
  dsimp only [parseFromAddress]
  cases rt.overflows value with
  | true => simp
  | false =>
      by_cases shape : WellShaped (rt.canonical value)
      · simp [shape, and_comm]
      · simp [shape]

/-- The checks a report names as not passing; DMARC is advisory. -/
def DnsState.failing (state : DnsState) : List String :=
  (state.checks.filter fun c => c.2.result ≠ "pass" ∧ c.1 ≠ "dmarc").map Prod.fst

def DomainStatus.remedy (domainName : String) : DomainStatus → String
  | verified => " Its DNS is complete; run 'appctl admin domains verify" ++
      s!" {domainName}' to promote it to ready."
  | added => " Publish its DNS records ('appctl admin domains records" ++
      s!" {domainName}'), then verify it."
  | ownershipPending => " The ownership TXT record is not resolving yet."
  | dnsIncomplete => " Publish the missing records, then run 'appctl admin domains" ++
      s!" verify {domainName}'."
  | misconfigured =>
      " Its DNS used to pass and no longer does -- something changed outside emaild."
  | suspended => " An operator suspended it."
  | ready => ""

def domainNotReady (domain : Domain) : Raised :=
  let bad := (domain.dnsState.map DnsState.failing).getD []
  let failing := if bad.isEmpty then "" else s!" Failing checks: {joinSorted bad}."
  .api {
    errorType := .domainNotReady
    message := s!"Domain {domain.name} is '{domain.status.value}' and cannot send." ++
      failing ++ domain.status.remedy domain.name
    param := some "from" }

/-- `authorize_sender` -/
def authorizeSender (rt : Runtime) (principal : Principal) (fromValue : String) :
    Except Raised (Option String × SenderIdentity) :=
  match parseFromAddress rt fromValue with
  | .error e => .error e
  | .ok (displayName, address) =>
      match principal.mailboxes.get? address with
      | none =>
          let message :=
            if principal.mailboxes.rows.isEmpty then
              "This API key has no sender identities. Grant one with: " ++
                s!"keys create ... --mailbox {address}"
            else s!"This API key is not permitted to send as {address}. " ++
              s!"Permitted: {joinSorted principal.allowedAddresses}."
          .error (.api {
            errorType := .authorizationError, message := message, param := some "from" })
      | some identity =>
          if identity.mailbox.active = false then .error (.api {
            errorType := .authorizationError
            message := s!"Sender identity {address} is deactivated.", param := some "from" })
          else if identity.domain.status = .ready then .ok (displayName, identity)
          else .error (domainNotReady identity.domain)

/-- An accepted sender is one of the principal's identities, active and on a
domain that is ready, as they were when the principal was resolved. -/
theorem authorizeSender_ok {rt : Runtime} {principal : Principal} {fromValue : String}
    {displayName : Option String} {identity : SenderIdentity}
    (h : authorizeSender rt principal fromValue = .ok (displayName, identity)) :
    (∃ address, principal.mailboxes.get? address = some identity) ∧
      identity.mailbox.active = true ∧ identity.domain.status = .ready := by
  unfold authorizeSender at h
  split at h
  · cases h
  · rename_i address _
    split at h
    · cases h
    · rename_i found
      split at h
      · cases h
      · rename_i active
        split at h
        · rename_i ready
          cases h
          exact ⟨⟨address, found⟩, by simpa using active, ready⟩
        · cases h

/-- The mailbox is active and its domain ready. -/
def Database.Sendable (db : Database) (mailboxId : Nat) : Prop :=
  ∃ mailbox domain, db.mailboxes.find? mailboxId = some mailbox ∧ mailbox.active = true ∧
    db.domains.find? mailbox.domainId = some domain ∧ domain.status = .ready

end Emaild
