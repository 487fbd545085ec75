import Mathlib.Data.Prod.Lex
import Mathlib.Data.String.Basic
import Emaild.Authority

/-!
A test message from the dashboard. It goes the way of a request that presents a key, so the
dashboard has to tell which keys may send from which addresses, and why the other
addresses cannot be sent from.
-/
namespace Emaild
open Relational Text

/-- A key and an address that the dashboard offers to send from with it. -/
structure SendOption where
  keyId : Nat
  keyName : String
  projectName : String
  sender : String
  deriving DecidableEq

/-- An address, or a domain, that cannot be picked, with the piece that is missing. -/
structure Blocked where
  subject : String
  reason : String
  fix : String
  href : Option String := none
  command : Option String := none
  deriving DecidableEq

def ApiKey.standing (key : ApiKey) : Bool := key.active && key.revokedAt.isNone

namespace Database
variable (db : Database)

def standingKeys : List ApiKey := db.apiKeys.rows.filter ApiKey.standing

/-- `key.scopes` -/
def scopesOf (key : ApiKey) : List ApiKeyScope :=
  db.apiKeyScopes.rows.filter fun s => s.apiKeyId = key.id

/-- The address of an active mailbox on a ready domain. -/
def sendable (mailboxId : Nat) : Option String := do
  let mailbox ← db.mailboxes.find? mailboxId
  let domain ← db.domains.find? mailbox.domainId
  if mailbox.active = true ∧ domain.status = .ready then some mailbox.address else none

/-- What one key is offered with. -/
def keyOptions (key : ApiKey) : List SendOption :=
  match db.projects.find? key.projectId with
  -- a foreign key keeps every key a project
  | none => []
  | some project =>
      if project.active = false then []
      else (db.scopesOf key).filterMap fun scope =>
        (db.sendable scope.mailboxId).map fun address =>
          { keyId := key.id, keyName := key.name, projectName := project.name, sender := address }

/-- `send_options`. The keys come with the one created last. -/
def sendOptions (createdAt : Nat → Time) : List SendOption :=
  let keys := db.standingKeys.insertionSort fun a b => createdAt b.id ≤ createdAt a.id
  (keys.flatMap db.keyOptions).insertionSort fun a b =>
    toLex (a.sender, a.keyName) ≤ toLex (b.sender, b.keyName)

def scopedMailboxIds : List Nat :=
  let keys := db.standingKeys.filter fun key =>
    (db.projects.find? key.projectId).any Project.active
  keys.flatMap fun key => (db.scopesOf key).map ApiKeyScope.mailboxId

/-- What is missing first for a mailbox to be sent from. -/
def blockedMailbox (mailbox : Mailbox) : Option Blocked :=
  match db.domains.find? mailbox.domainId with
  | none => none
  | some domain =>
      if domain.status ≠ .ready then some {
        subject := mailbox.address
        reason := s!"{domain.name} is {domain.status.value}, not ready. " ++
          "Only a ready domain may send."
        fix := "Re-check its DNS.", href := some "/domains" }
      else if mailbox.active = false then some {
        subject := mailbox.address
        reason := "This sender identity is deactivated."
        fix := "Re-provision it."
        command := some s!"./appctl admin mailboxes provision {mailbox.address}" }
      else if mailbox.id ∈ db.scopedMailboxIds then none
      else some {
        subject := mailbox.address
        reason := "No active API key is scoped to this address. A test " ++
          "sends through a real key, so that the same " ++
          "authorization your application will hit is exercised here too."
        fix := "Create a key and tick this address in 'Send as'.", href := some "/keys" }

/-- What is missing for a domain that has no mailbox at all. -/
def blockedDomain (domain : Domain) : Option Blocked :=
  let provision (reason : String) : Blocked := {
    subject := domain.name, reason := reason
    fix := "Provision one on the server — it needs the MXRoute credential."
    command := some s!"./appctl admin mailboxes provision noreply@{domain.name}" }
  if db.hasMailbox domain.id then none
  else match domain.status with
    | .ready => some (provision "This domain has no sender identity yet.")
    | .verified => some (provision "DNS is complete, but there is no sender identity yet.")
    | status => some {
        subject := domain.name, reason := s!"This domain is {status.value}, not ready."
        fix := "Publish the records it lists, then re-check.", href := some "/domains" }

def blockedMailboxes : List Blocked :=
  (db.mailboxes.rows.insertionSort fun a b => a.address ≤ b.address).filterMap db.blockedMailbox

def blockedDomains : List Blocked :=
  (db.domains.rows.insertionSort fun a b => a.name ≤ b.name).filterMap db.blockedDomain

/-- `blocked_senders` -/
def blockedSenders : List Blocked := db.blockedMailboxes ++ db.blockedDomains

def keyGone : Raised :=
  .sendRefused "That key no longer exists or has been revoked. Reload and try again."

/-- `_principal_for` -/
def principalFor (keyId : Nat) : Except Raised Principal :=
  match db.apiKeys.find? keyId with
  | none => .error keyGone
  | some key =>
      if key.revokedAt.isSome ∨ key.active = false then .error keyGone
      else match db.projects.find? key.projectId with
        | none => .error (.builtin "AttributeError")
        | some project =>
            if project.active = false then
              .error (.sendRefused s!"The project “{project.name}” is inactive.")
            else .ok {
              apiKeyId := key.id, keyName := key.name
              projectId := key.projectId, projectName := project.name
              mailboxes := scopedMailboxes db key }

end Database

/-! What each of the readings amounts to. -/

/-- What the schema promises of the rows: foreign keys, and columns with unique values. -/
structure Database.Constrained (db : Database) : Prop where
  projects : ∀ key ∈ db.apiKeys, ∃ project, db.projects.find? key.projectId = some project
  domains : ∀ m ∈ db.mailboxes, ∃ domain, db.domains.find? m.domainId = some domain
  addresses : ∀ m ∈ db.mailboxes, ∀ m' ∈ db.mailboxes, m.address = m'.address → m = m'
  digests : ∀ a ∈ db.apiKeys, ∀ b ∈ db.apiKeys, a.keyHash = b.keyHash → a = b

/-- The key is in use, and so is its project. -/
structure Database.InUse (db : Database) (key : ApiKey) (project : Project) : Prop where
  active : key.active = true
  unrevoked : key.revokedAt = none
  owner : db.projects.find? key.projectId = some project
  projectActive : project.active = true

/-- The mailbox is active and its domain ready. -/
structure Database.SendsFrom (db : Database) (m : Mailbox) (d : Domain) : Prop where
  mem : m ∈ db.mailboxes
  domain : db.domains.find? m.domainId = some d
  active : m.active = true
  ready : d.status = .ready

section Readings
variable {db : Database}

theorem sendable_eq_some {mailboxId : Nat} {address : String} :
    db.sendable mailboxId = some address ↔
      ∃ m d, db.SendsFrom m d ∧ m.id = mailboxId ∧ m.address = address := by
  unfold Database.sendable
  constructor
  · intro h
    obtain ⟨m, found, h⟩ := Option.bind_eq_some_iff.mp h
    obtain ⟨d, domain, h⟩ := Option.bind_eq_some_iff.mp h
    split at h
    · rename_i sends
      cases h
      exact ⟨m, d, ⟨Table.mem_of_find? found, domain, sends.1, sends.2⟩, Table.key_of_find? found,
        rfl⟩
    · cases h
  · rintro ⟨m, d, sends, rfl, rfl⟩
    rw [Table.find?_of_mem sends.mem]
    simp [sends.domain, sends.active, sends.ready]

theorem mem_scopesOf {key : ApiKey} {scope : ApiKeyScope} :
    scope ∈ db.scopesOf key ↔ scope ∈ db.apiKeyScopes ∧ scope.apiKeyId = key.id := by
  simp [Database.scopesOf, Table.mem_def]

theorem mem_keyOptions {key : ApiKey} {o : SendOption} :
    o ∈ db.keyOptions key ↔
      ∃ project, db.projects.find? key.projectId = some project ∧ project.active = true ∧
        ∃ m d, (⟨key.id, m.id⟩ : ApiKeyScope) ∈ db.apiKeyScopes ∧ db.SendsFrom m d ∧
          o = ⟨key.id, key.name, project.name, m.address⟩ := by
  unfold Database.keyOptions
  cases db.projects.find? key.projectId with
  | none => simp
  | some project =>
      cases active : project.active with
      | false => simp [active]
      | true =>
          simp only [active, Bool.true_eq_false, if_false, List.mem_filterMap,
            Option.map_eq_some_iff, Option.some.injEq]
          constructor
          · rintro ⟨scope, granted, address, offered, rfl⟩
            obtain ⟨m, d, sends, same, rfl⟩ := sendable_eq_some.mp offered
            obtain ⟨mem, own⟩ := mem_scopesOf.mp granted
            refine ⟨project, rfl, active, m, d, ?_, sends, rfl⟩
            rw [← own, same]
            exact mem
          · rintro ⟨_, rfl, _, m, d, granted, sends, rfl⟩
            exact ⟨⟨key.id, m.id⟩, mem_scopesOf.mpr ⟨granted, rfl⟩, m.address,
              sendable_eq_some.mpr ⟨m, d, sends, rfl, rfl⟩, rfl⟩

theorem mem_standingKeys {key : ApiKey} :
    key ∈ db.standingKeys ↔
      key ∈ db.apiKeys ∧ key.active = true ∧ key.revokedAt = none := by
  simp [Database.standingKeys, ApiKey.standing, Table.mem_def]

/-- An option is a scope of a key in use for a mailbox that can be sent from. -/
theorem mem_sendOptions {createdAt : Nat → Time} {o : SendOption} :
    o ∈ db.sendOptions createdAt ↔
      ∃ key ∈ db.apiKeys, ∃ project m d, db.InUse key project ∧
        (⟨key.id, m.id⟩ : ApiKeyScope) ∈ db.apiKeyScopes ∧ db.SendsFrom m d ∧
          o = ⟨key.id, key.name, project.name, m.address⟩ := by
  simp only [Database.sendOptions, List.mem_insertionSort, List.mem_flatMap, mem_standingKeys,
    mem_keyOptions]
  constructor
  · rintro ⟨key, ⟨mem, active, unrevoked⟩, project, owner, projectActive, m, d, granted, sends, rfl⟩
    exact ⟨key, mem, project, m, d, ⟨active, unrevoked, owner, projectActive⟩, granted, sends, rfl⟩
  · rintro ⟨key, mem, project, m, d, inUse, granted, sends, rfl⟩
    exact ⟨key, ⟨mem, inUse.active, inUse.unrevoked⟩, project, inUse.owner,
      inUse.projectActive, m, d,
      granted, sends, rfl⟩

theorem mem_scopedMailboxIds {mailboxId : Nat} :
    mailboxId ∈ db.scopedMailboxIds ↔
      ∃ key ∈ db.apiKeys, ∃ project, db.InUse key project ∧
        (⟨key.id, mailboxId⟩ : ApiKeyScope) ∈ db.apiKeyScopes := by
  simp only [Database.scopedMailboxIds, List.mem_flatMap, List.mem_filter, mem_standingKeys,
    List.mem_map, Option.any_eq_true]
  constructor
  · rintro ⟨key, ⟨⟨mem, active, unrevoked⟩, project, owner, projectActive⟩, scope, granted, rfl⟩
    obtain ⟨mem', own⟩ := mem_scopesOf.mp granted
    refine ⟨key, mem, project, ⟨active, unrevoked, owner, projectActive⟩, ?_⟩
    rw [← own]
    exact mem'
  · rintro ⟨key, mem, project, inUse, granted⟩
    exact ⟨key, ⟨⟨mem, inUse.active, inUse.unrevoked⟩, project, inUse.owner, inUse.projectActive⟩,
      ⟨key.id, mailboxId⟩, mem_scopesOf.mpr ⟨granted, rfl⟩, rfl⟩

/-- The principal of a key. -/
def Database.principalOf (db : Database) (key : ApiKey) (project : Project) : Principal where
  apiKeyId := key.id
  keyName := key.name
  projectId := project.id
  projectName := project.name
  mailboxes := scopedMailboxes db key

theorem principalFor_eq_ok {keyId : Nat} {p : Principal} :
    db.principalFor keyId = .ok p ↔
      ∃ key project, db.apiKeys.find? keyId = some key ∧ db.InUse key project ∧
        p = db.principalOf key project := by
  unfold Database.principalFor
  constructor
  · intro h
    split at h
    · cases h
    · rename_i key found
      split at h
      · cases h
      · rename_i standing
        push Not at standing
        split at h
        · cases h
        · rename_i project owner
          split at h
          · cases h
          · rename_i active
            cases h
            refine ⟨key, project, found,
              ⟨by simpa using standing.2, by simpa using standing.1, owner,
              by simpa using active⟩, ?_⟩
            rw [Database.principalOf, Table.key_of_find? owner]
  · rintro ⟨key, project, found, inUse, rfl⟩
    simp [found, inUse.active, inUse.unrevoked, inUse.owner, inUse.projectActive,
      Database.principalOf, Table.key_of_find? inUse.owner]

theorem resolvePrincipal_eq_ok {rt : Runtime} {now : Time} {token : String} {p : Principal}
    {db' : Database} :
    resolvePrincipal rt now db token = .ok (p, db') ↔
      ∃ key project, (db.apiKeys.rows.find? fun k => k.keyHash = rt.sha256 token) = some key ∧
        db.InUse key project ∧ p = db.principalOf key project ∧ db' = touchLastUsed now db key := by
  unfold resolvePrincipal
  constructor
  · intro h
    split at h
    · cases h
    · rename_i key found
      split at h
      · cases h
      · rename_i standing
        push Not at standing
        split at h
        · cases h
        · rename_i project owner
          split at h
          · cases h
          · rename_i active
            cases h
            exact ⟨key, project, found,
              ⟨by simpa using standing.2, by simpa using standing.1, owner,
              by simpa using active⟩, rfl, rfl⟩
  · rintro ⟨key, project, found, inUse, rfl, rfl⟩
    simp [found, inUse.active, inUse.unrevoked, inUse.owner, inUse.projectActive,
      Database.principalOf]

/-- The digest of a key leads to its row. -/
theorem find?_digest (constrained : db.Constrained) {key : ApiKey} (mem : key ∈ db.apiKeys)
    {digest : String} (own : key.keyHash = digest) :
    (db.apiKeys.rows.find? fun k => k.keyHash = digest) = some key := by
  cases found : db.apiKeys.rows.find? fun k => k.keyHash = digest with
  | none =>
      have absent := List.find?_eq_none.mp found key mem
      simp [own] at absent
  | some k =>
      have same : k.keyHash = digest := by simpa using List.find?_some found
      rw [constrained.digests k (List.mem_of_find?_eq_some found) key mem (same.trans own.symm)]

theorem principalFor_iff_resolves (constrained : db.Constrained) {rt : Runtime} {key : ApiKey}
    (mem : key ∈ db.apiKeys) {token : String} (own : key.keyHash = rt.sha256 token) (now : Time)
    (p : Principal) :
    db.principalFor key.id = .ok p ↔ ∃ db', resolvePrincipal rt now db token = .ok (p, db') := by
  simp only [principalFor_eq_ok, resolvePrincipal_eq_ok, find?_digest constrained mem own,
    Table.find?_of_mem mem]
  constructor
  · rintro ⟨key', project, same, inUse, rfl⟩
    exact ⟨_, key', project, same, inUse, rfl, rfl⟩
  · rintro ⟨_, key', project, same, inUse, rfl, _⟩
    exact ⟨key', project, same, inUse, rfl⟩

/-! The identities of a principal. -/

theorem scopedMailboxes_sound {key : ApiKey} {address : String} {identity : SenderIdentity}
    (known : (scopedMailboxes db key).get? address = some identity) :
    identity.mailbox ∈ db.mailboxes ∧ identity.mailbox.address = address ∧
      db.domains.find? identity.mailbox.domainId = some identity.domain ∧
        (⟨key.id, identity.mailbox.id⟩ : ApiKeyScope) ∈ db.apiKeyScopes := by
  obtain ⟨entry, found, rfl⟩ := Option.map_eq_some_iff.mp known
  obtain ⟨m, listed, made⟩ := List.mem_filterMap.mp (Dict.mem_of_find?_ofList found)
  obtain ⟨mem, granted⟩ := List.mem_filter.mp listed
  obtain ⟨scope, granted, isM⟩ := List.mem_map.mp (of_decide_eq_true granted)
  obtain ⟨old, own⟩ := mem_scopesOf.mp granted
  have isAddress : entry.1 = address := Table.key_of_find? found
  obtain ⟨d, domain, rfl⟩ := Option.map_eq_some_iff.mp made
  refine ⟨mem, isAddress, domain, ?_⟩
  rw [← own, ← isM]
  exact old

theorem scopedMailboxes_complete (constrained : db.Constrained) {key : ApiKey} {m : Mailbox}
    {d : Domain} (mem : m ∈ db.mailboxes) (domain : db.domains.find? m.domainId = some d)
    (granted : (⟨key.id, m.id⟩ : ApiKeyScope) ∈ db.apiKeyScopes) :
    (scopedMailboxes db key).get? m.address = some ⟨m, d⟩ := by
  have listed : (m.address, (⟨m, d⟩ : SenderIdentity)) ∈
      (db.mailboxes.rows.filter fun m => m.id ∈ (db.scopesOf key).map
        ApiKeyScope.mailboxId).filterMap fun m =>
          (db.domains.find? m.domainId).map fun d => (m.address, ⟨m, d⟩) := by
    refine List.mem_filterMap.mpr
      ⟨m, List.mem_filter.mpr ⟨mem, decide_eq_true ?_⟩, by simp [domain]⟩
    exact List.mem_map.mpr ⟨⟨key.id, m.id⟩, mem_scopesOf.mpr ⟨granted, rfl⟩, rfl⟩
  obtain ⟨entry, found⟩ := Option.ne_none_iff_exists'.mp (Dict.find?_ofList_ne_none listed)
  have known : (scopedMailboxes db key).get? m.address = some entry.2 := by
    rw [Dict.get?]
    exact congrArg (Option.map Prod.snd) found
  obtain ⟨mem', same, domain', _⟩ := scopedMailboxes_sound known
  have isM := constrained.addresses _ mem' m mem same
  rw [isM, domain] at domain'
  rw [known, ← isM, Option.some.inj domain']

/-- The address is what is read out of it. -/
def Runtime.Fixes (rt : Runtime) (address : String) : Prop :=
  ∃ name, parseFromAddress rt address = .ok (name, address)

theorem authorizeSender_iff {rt : Runtime} {p : Principal} {sender : String}
    (fixed : rt.Fixes sender) :
    (∃ r, authorizeSender rt p sender = .ok r) ↔
      ∃ identity, p.mailboxes.get? sender = some identity ∧ identity.mailbox.active = true ∧
        identity.domain.status = .ready := by
  obtain ⟨name, parsed⟩ := fixed
  unfold authorizeSender
  rw [parsed]
  dsimp only
  cases p.mailboxes.get? sender with
  | none => simp
  | some identity =>
      cases active : identity.mailbox.active with
      | false => simp [active]
      | true => by_cases ready : identity.domain.status = .ready <;> simp [active, ready]

/-- A sender that a principal's key may send as is a mailbox in its scopes that can be sent
from. -/
theorem authorized_iff (constrained : db.Constrained) {rt : Runtime} {key : ApiKey}
    {project : Project} {sender : String} (fixed : rt.Fixes sender) :
    (∃ r, authorizeSender rt (db.principalOf key project) sender = .ok r) ↔
      ∃ m d, (⟨key.id, m.id⟩ : ApiKeyScope) ∈ db.apiKeyScopes ∧ db.SendsFrom m d ∧
        m.address = sender := by
  rw [authorizeSender_iff fixed]
  constructor
  · rintro ⟨identity, known, active, ready⟩
    obtain ⟨mem, address, domain, granted⟩ := scopedMailboxes_sound known
    exact ⟨identity.mailbox, identity.domain, granted, ⟨mem, domain, active, ready⟩, address⟩
  · rintro ⟨m, d, granted, sends, rfl⟩
    exact ⟨⟨m, d⟩,
      scopedMailboxes_complete constrained sends.mem sends.domain granted, sends.active,
      sends.ready⟩

/-- The dashboard offers to send from the address with the key. -/
def Database.Offers (db : Database) (createdAt : Nat → Time) (keyId : Nat)
    (sender : String) : Prop :=
  ∃ o ∈ db.sendOptions createdAt, o.keyId = keyId ∧ o.sender = sender

theorem offers_iff_scope {createdAt : Nat → Time} {keyId : Nat} {sender : String} :
    db.Offers createdAt keyId sender ↔
      ∃ key project, db.apiKeys.find? keyId = some key ∧ db.InUse key project ∧
        ∃ m d, (⟨key.id, m.id⟩ : ApiKeyScope) ∈ db.apiKeyScopes ∧ db.SendsFrom m d ∧
          m.address = sender := by
  simp only [Database.Offers, mem_sendOptions]
  constructor
  · rintro ⟨_, ⟨key, mem, project, m, d, inUse, granted, sends, rfl⟩, rfl, rfl⟩
    exact ⟨key, project, Table.find?_of_mem mem, inUse, m, d, granted, sends, rfl⟩
  · rintro ⟨key, project, found, inUse, m, d, granted, sends, rfl⟩
    have isKey : key.id = keyId := Table.key_of_find? found
    exact ⟨_,
      ⟨key, Table.mem_of_find? found, project, m, d, inUse, granted, sends, rfl⟩, isKey, rfl⟩

theorem offers_iff (constrained : db.Constrained) {rt : Runtime}
    (fixed : ∀ m ∈ db.mailboxes, rt.Fixes m.address) {createdAt : Nat → Time} {keyId : Nat}
    {sender : String} :
    db.Offers createdAt keyId sender ↔
      rt.Fixes sender ∧ ∃ p r, db.principalFor keyId = .ok p ∧
        authorizeSender rt p sender = .ok r := by
  rw [offers_iff_scope]
  simp only [principalFor_eq_ok]
  constructor
  · rintro ⟨key, project, found, inUse, m, d, granted, sends, rfl⟩
    obtain ⟨r, authorized⟩ := (authorized_iff constrained (fixed m sends.mem)).mpr
      ⟨m, d, granted, sends, rfl⟩
    exact ⟨fixed m sends.mem, _, r, ⟨key, project, found, inUse, rfl⟩, authorized⟩
  · rintro ⟨fixed, _, r, ⟨key, project, found, inUse, rfl⟩, authorized⟩
    obtain ⟨m, d, granted, sends, address⟩ := (authorized_iff constrained fixed).mp ⟨r, authorized⟩
    exact ⟨key, project, found, inUse, m, d, granted, sends, address⟩

/-! The entries about a mailbox. -/

/-- The entries that have the mailbox for their subject; those of domains without a mailbox
have a domain for theirs. -/
def Database.entriesOf (db : Database) (m : Mailbox) : List Blocked :=
  db.blockedSenders.filter fun b => b.subject = m.address ∧ b ∉ db.blockedDomains

theorem blockedMailbox_shape {m : Mailbox} {b : Blocked} (blocked : db.blockedMailbox m = some b) :
    b.subject = m.address ∧ b.fix ∈ ["Re-check its DNS.", "Re-provision it.",
      "Create a key and tick this address in 'Send as'."] := by
  unfold Database.blockedMailbox at blocked
  split at blocked
  · cases blocked
  · split at blocked
    · cases blocked
      exact ⟨rfl, by simp⟩
    · split at blocked
      · cases blocked
        exact ⟨rfl, by simp⟩
      · split at blocked
        · cases blocked
        · cases blocked
          exact ⟨rfl, by simp⟩

theorem blockedDomain_shape {d : Domain} {b : Blocked} (blocked : db.blockedDomain d = some b) :
    b.subject = d.name ∧ b.fix ∈ ["Provision one on the server — it needs the MXRoute credential.",
      "Publish the records it lists, then re-check."] := by
  unfold Database.blockedDomain at blocked
  dsimp only at blocked
  split at blocked
  · cases blocked
  · split at blocked
    all_goals
      cases blocked
      exact ⟨rfl, by simp⟩

theorem not_mem_blockedDomains {b : Blocked} (mem : b ∈ db.blockedMailboxes) :
    b ∉ db.blockedDomains := by
  intro other
  obtain ⟨m, _, blocked⟩ := List.mem_filterMap.mp mem
  obtain ⟨d, _, blocked'⟩ := List.mem_filterMap.mp other
  have fix := (blockedMailbox_shape blocked).2
  have fix' := (blockedDomain_shape blocked').2
  simp only [List.mem_cons, List.not_mem_nil, or_false] at fix fix'
  rcases fix' with same | same <;> rw [same] at fix <;> revert fix <;> decide

theorem entriesOf_eq (m : Mailbox) :
    db.entriesOf m = db.blockedMailboxes.filter fun b => b.subject = m.address := by
  rw [Database.entriesOf, Database.blockedSenders, List.filter_append]
  have others : (db.blockedDomains.filter fun b =>
      b.subject = m.address ∧ b ∉ db.blockedDomains) = [] :=
    List.filter_eq_nil_iff.mpr fun b mem => by simp [mem]
  rw [others, List.append_nil]
  refine List.filter_congr fun b mem => ?_
  simp [not_mem_blockedDomains mem]

/-- Where no domain is named like the address, these are all the entries with that subject. -/
theorem entriesOf_eq_of_unlike {m : Mailbox} (unlike : ∀ d ∈ db.domains, d.name ≠ m.address) :
    db.entriesOf m = db.blockedSenders.filter fun b => b.subject = m.address := by
  rw [entriesOf_eq, Database.blockedSenders, List.filter_append]
  have others : (db.blockedDomains.filter fun b => b.subject = m.address) = [] := by
    refine List.filter_eq_nil_iff.mpr fun b mem => ?_
    obtain ⟨d, listed, blocked⟩ := List.mem_filterMap.mp mem
    rw [(blockedDomain_shape blocked).1, decide_eq_true_eq]
    exact unlike d ((List.mem_insertionSort _).mp listed)
  rw [others, List.append_nil]

theorem filterMap_eq_toList {α β : Type} {f : α → Option β} {a : α} {l : List α}
    (distinct : l.Nodup) (mem : a ∈ l) (only : ∀ x ∈ l, x ≠ a → f x = none) :
    l.filterMap f = (f a).toList := by
  induction l with
  | nil => cases mem
  | cons x l ih =>
      obtain ⟨fresh, distinct⟩ := List.nodup_cons.mp distinct
      obtain ⟨first, rest⟩ := List.forall_mem_cons.mp only
      by_cases here : x = a
      · subst here
        have later : l.filterMap f = [] :=
          List.filterMap_eq_nil_iff.mpr fun y listed =>
            rest y listed (ne_of_mem_of_not_mem listed fresh)
        cases found : f x <;> simp [found, later]
      · have later := (List.mem_cons.mp mem).resolve_left (Ne.symm here)
        rw [List.filterMap_cons, first here]
        exact ih distinct later rest

theorem entriesOf_eq_toList (constrained : db.Constrained) {m : Mailbox} (mem : m ∈ db.mailboxes) :
    db.entriesOf m = (db.blockedMailbox m).toList := by
  rw [entriesOf_eq, Database.blockedMailboxes, List.filter_filterMap]
  have own (x : Mailbox) : (db.blockedMailbox x).filter (fun b => b.subject = m.address) =
      if x.address = m.address then db.blockedMailbox x else none := by
    cases blocked : db.blockedMailbox x with
    | none => simp
    | some b => simp [Option.filter, (blockedMailbox_shape blocked).1]
  simp only [own]
  have perm :=
    List.perm_insertionSort (fun a b : Mailbox => a.address ≤ b.address) db.mailboxes.rows
  refine (filterMap_eq_toList (perm.nodup_iff.mpr (List.Nodup.of_map Mailbox.id db.mailboxes.nodup))
    (perm.mem_iff.mpr mem) fun x listed other => if_neg fun same => other ?_).trans (by simp)
  exact constrained.addresses x (perm.mem_iff.mp listed) m mem same

theorem blockedMailbox_eq_none (constrained : db.Constrained) {m : Mailbox}
    (mem : m ∈ db.mailboxes) {createdAt : Nat → Time} :
    db.blockedMailbox m = none ↔ ∃ keyId, db.Offers createdAt keyId m.address := by
  obtain ⟨d, domain⟩ := constrained.domains m mem
  have offered : (∃ keyId, db.Offers createdAt keyId m.address) ↔
      m.id ∈ db.scopedMailboxIds ∧ m.active = true ∧ d.status = .ready := by
    simp only [offers_iff_scope, mem_scopedMailboxIds]
    constructor
    · rintro ⟨keyId, key, project, found, inUse, m', d', granted, sends, same⟩
      cases constrained.addresses m' sends.mem m mem same
      cases domain.symm.trans sends.domain
      exact ⟨⟨key, Table.mem_of_find? found, project, inUse, granted⟩, sends.active, sends.ready⟩
    · rintro ⟨⟨key, listed, project, inUse, granted⟩, active, ready⟩
      exact ⟨key.id, key, project, Table.find?_of_mem listed, inUse, m, d, granted,
        ⟨mem, domain, active, ready⟩, rfl⟩
  rw [offered]
  simp only [Database.blockedMailbox, domain]
  by_cases ready : d.status = .ready
  · cases active : m.active with
    | false => simp [ready]
    | true => by_cases listed : m.id ∈ db.scopedMailboxIds <;> simp [ready, listed]
  · simp [ready]

end Readings

/-- A mailbox is offered, or one entry says what is missing. -/
def Database.Accounted (db : Database) (createdAt : Nat → Time) (m : Mailbox) : Prop :=
  ((∃ keyId, db.Offers createdAt keyId m.address) ∧ db.entriesOf m = []) ∨
    ((¬ ∃ keyId, db.Offers createdAt keyId m.address) ∧ ∃ b, db.entriesOf m = [b])

/-- The dashboard and the interface read the rule alike. -/
theorem readings_agree (rt : Runtime) {db : Database} (constrained : db.Constrained)
    (fixed : ∀ m ∈ db.mailboxes, rt.Fixes m.address) (createdAt : Nat → Time) :
    (∀ key ∈ db.apiKeys, ∀ token now p, key.keyHash = rt.sha256 token →
      (db.principalFor key.id = .ok p ↔
        ∃ db', resolvePrincipal rt now db token = .ok (p, db'))) ∧
    (∀ keyId sender, db.Offers createdAt keyId sender ↔
      rt.Fixes sender ∧ ∃ p r, db.principalFor keyId = .ok p ∧
        authorizeSender rt p sender = .ok r) ∧
    ∀ m ∈ db.mailboxes, db.Accounted createdAt m := by
  refine ⟨fun key mem token now p own => principalFor_iff_resolves constrained mem own now p,
    fun keyId sender => offers_iff constrained fixed, fun m mem => ?_⟩
  unfold Database.Accounted
  rw [entriesOf_eq_toList constrained mem, ← blockedMailbox_eq_none constrained mem]
  cases db.blockedMailbox m with
  | none => exact .inl ⟨rfl, rfl⟩
  | some b => exact .inr ⟨by simp, b, rfl⟩

namespace Sample

theorem store_constrained : (store mailbox).Constrained where
  projects key mem := by
    cases List.mem_singleton.mp mem
    exact ⟨project, rfl⟩
  domains m mem := by
    cases List.mem_singleton.mp mem
    exact ⟨domain, rfl⟩
  addresses m mem m' mem' _ := (List.mem_singleton.mp mem).trans (List.mem_singleton.mp mem').symm
  digests a ha b hb _ := (List.mem_singleton.mp ha).trans (List.mem_singleton.mp hb).symm

theorem shop_fixed : ∀ m ∈ (store mailbox).mailboxes, runtime.Fixes m.address := by
  intro m mem
  cases List.mem_singleton.mp mem
  exact ⟨none, by decide⟩

end Sample

theorem shop_readings_agree :
    ((Sample.store Sample.mailbox).principalFor 1 = .ok (Sample.principal Sample.mailbox) ↔
        ∃ db', resolvePrincipal Sample.runtime 0 (Sample.store Sample.mailbox) "em_live_1" =
          .ok (Sample.principal Sample.mailbox, db')) ∧
      (Sample.store Sample.mailbox).Accounted (fun _ => 0) Sample.mailbox := by
  have agree := readings_agree Sample.runtime Sample.store_constrained Sample.shop_fixed fun _ => 0
  exact ⟨agree.1 Sample.apiKey (List.mem_singleton_self _) "em_live_1" 0 _ rfl,
    agree.2.2 Sample.mailbox (List.mem_singleton_self _)⟩

end Emaild
