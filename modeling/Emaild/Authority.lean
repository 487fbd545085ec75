import Emaild.Domains.Readiness

/-!
What a key may send as. A key is looked up by its digest, its project has to be active,
and the mailboxes of its scopes are read when it is presented. All that an operation can
do to these four tables leaves every key with less than it was created with.
-/
namespace Emaild
open Relational Text Transition

/-- The addresses for which a presented key is accepted and then authorised. -/
def Database.authority (rt : Runtime) (db : Database) (presentedKey : String) : Set String :=
  { address | ∃ now principal db' fromValue displayName identity,
      resolvePrincipal rt now db presentedKey = .ok (principal, db') ∧
      parseFromAddress rt fromValue = .ok (displayName, address) ∧
      authorizeSender rt principal fromValue = .ok (displayName, identity) }

theorem mem_scopedMailboxes {db : Database} {key : ApiKey} {address : String}
    {identity : SenderIdentity} (h : (scopedMailboxes db key).get? address = some identity) :
    ∃ m ∈ db.mailboxes, m.address = address ∧ (⟨key.id, m.id⟩ : ApiKeyScope) ∈ db.apiKeyScopes := by
  obtain ⟨entry, found, _⟩ := Option.map_eq_some_iff.mp h
  obtain ⟨m, listed, made⟩ := List.mem_filterMap.mp (Dict.mem_of_find?_ofList found)
  obtain ⟨mem, scope⟩ := List.mem_filter.mp listed
  obtain ⟨pair, granted, isM⟩ := List.mem_map.mp (of_decide_eq_true scope)
  obtain ⟨old, isKey⟩ := List.mem_filter.mp granted
  have isAddress : entry.1 = address := Table.key_of_find? found
  obtain ⟨d, _, rfl⟩ := Option.map_eq_some_iff.mp made
  refine ⟨m, mem, isAddress, ?_⟩
  have isKey : pair.apiKeyId = key.id := of_decide_eq_true isKey
  rw [← isKey, ← isM]
  exact old

/-- What is behind an address of a key: the row of the key, which is not revoked, its
project, which is active, and a scope of the key for a mailbox of the address. -/
theorem mem_authority {rt : Runtime} {db : Database} {presentedKey address : String}
    (h : address ∈ db.authority rt presentedKey) :
    ∃ key ∈ db.apiKeys, key.keyHash = rt.sha256 presentedKey ∧ key.revokedAt = none ∧
      (∃ project ∈ db.projects, project.id = key.projectId ∧ project.active = true) ∧
      ∃ m ∈ db.mailboxes, m.address = address ∧
        (⟨key.id, m.id⟩ : ApiKeyScope) ∈ db.apiKeyScopes := by
  obtain ⟨now, principal, db', fromValue, displayName, identity, resolved, parsed, sends⟩ := h
  unfold resolvePrincipal at resolved
  split at resolved
  · cases resolved
  · rename_i key found
    split at resolved
    · cases resolved
    · rename_i standing
      push Not at standing
      split at resolved
      · cases resolved
      · rename_i project housed
        split at resolved
        · cases resolved
        · rename_i active
          cases resolved
          refine ⟨key, List.mem_of_find?_eq_some found, by simpa using List.find?_some found,
            by simpa using standing.1, ⟨project, Table.mem_of_find? housed,
              Table.key_of_find? housed, by simpa using active⟩, ?_⟩
          unfold authorizeSender at sends
          rw [parsed] at sends
          dsimp only at sends
          split at sends
          · cases sends
          · rename_i found
            exact mem_scopedMailboxes found

/-! The operations. -/

/-- `create_api_key` among other transactions: each statement finds a value of the store of
its own, and the rows are written to the last one. -/
def createApiKeyAmid (rt : Runtime) (seen : Nat → Database) (db : Database)
    (name projectName : String) (mailboxAddresses : List String) (draw : KeyDraw) :
    Except Raised ((ApiKey × String × List String) × Database) := do
  let name ← cleanName name "key"
  let project ← usableProject (seen 0) projectName
  let mailboxes ← wantedMailboxes rt (seen 1) mailboxAddresses
  checkDuplicate (seen 2) name
  let (fullKey, keyHash, keyPrefix) := generateApiKey rt draw.token
  let key : ApiKey :=
    { id := draw.id, projectId := project.id, name := name, keyHash := keyHash
      keyPrefix := keyPrefix, active := true, lastUsedAt := none, revokedAt := none }
  let db ← db.insertApiKey key
  let db ← mailboxes.foldlM (fun db m => db.insertScope ⟨key.id, m.id⟩) db
  return ((key, fullKey, (mailboxes.map Mailbox.address).insertionSort (· ≤ ·)), db)

theorem createApiKeyAmid_alone (rt : Runtime) (db : Database) (name projectName : String)
    (mailboxAddresses : List String) (draw : KeyDraw) :
    createApiKeyAmid rt (fun _ => db) db name projectName mailboxAddresses draw =
      createApiKey rt db name projectName mailboxAddresses draw := rfl

/-- `revoke_api_key` among other transactions, with the row that it has found. -/
def revokeApiKeyAmid (seen db : Database) (name : String) (now : Time) :
    Except Raised ((ApiKey × String) × Database) := do
  match ← scalarOneOrNone (seen.apiKeys.rows.filter fun k => k.name = name) with
  | none => .error (.management s!"No such key: {name}")
  | some key =>
      match key.revokedAt with
      | some revokedAt =>
        return ((key, s!"Key '{name}' was already revoked at {minuteStamp revokedAt}."), db)
      | none => return ((key,
            s!"Revoked '{name}'. Effective immediately -- authentication is never cached."),
            { db with
              apiKeys := db.apiKeys.modify key.id (ApiKey.revoke now) (ApiKey.revoke_id now) })

theorem revokeApiKeyAmid_alone (db : Database) (name : String) (now : Time) :
    (revokeApiKeyAmid db db name now).map (fun r => (r.1.2, r.2)) = revokeApiKey db name now := by
  unfold revokeApiKeyAmid revokeApiKey
  cases scalarOneOrNone (db.apiKeys.rows.filter fun k => k.name = name) with
  | error e => rfl
  | ok found =>
      cases found with
      | none => rfl
      | some key => 
          simp only [bind, Except.bind]
          cases key.revokedAt <;> rfl

/-- What `create_api_key` has returned. -/
structure IssuedKey where
  key : ApiKey
  fullKey : String
  addresses : List String
  deriving DecidableEq

/-- The store, with the keys that were created and the ids of those that revocations have
found. -/
structure Keyring where
  history : History Database
  issued : List IssuedKey
  revoked : List Nat

namespace Keyring

def start (db : Database) : Keyring := ⟨.start db, [], []⟩

abbrev current (s : Keyring) : Database := s.history.current

def commit (s : Keyring) (db : Database) : Keyring := { s with history := s.history.commit db }

end Keyring

/-- The operations on keys and on what they are scoped to. The numbers are the ages of what
their statements have read. An operator may stop a project. -/
inductive KeyringAction (σ : Type)
  | createProject (name : String) (description : Option String) (id : Nat)
      (rival : Option Project)
  | createApiKey (name projectName : String) (mailboxAddresses : List String) (draw : KeyDraw)
      (ages : List Nat)
  | revokeApiKey (name : String) (now : Time) (age : Nat)
  | resolvePrincipal (presentedKey : String) (now : Time)
  | domains (a : DomainAction σ)
  | stopProject (id : Nat)

def Database.stopProject (db : Database) (id : Nat) : Database :=
  { db with projects := db.projects.modify id fun p => { p with active := false } }

section Runs
variable {σ : Type} (c : Mxroute.Client σ) (rt : Runtime) (cipher : MailboxCipher)

/-- One operation; what fails leaves nothing behind. -/
def KeyringAction.step (s : Keyring) : KeyringAction σ → Option Keyring
  | .createProject name description id rival =>
      some (s.commit (sessionScope (Emaild.createProject name description id rival) s.current).2)
  | .createApiKey name projectName mailboxAddresses draw ages =>
      match createApiKeyAmid rt (s.history.meets ages) s.current name projectName mailboxAddresses
          draw with
      | .ok ((key, fullKey, addresses), db) =>
          some { s.commit db with issued := ⟨key, fullKey, addresses⟩ :: s.issued }
      | .error _ => some s
  | .revokeApiKey name now age =>
      match revokeApiKeyAmid (s.history.read age) s.current name now with
      | .ok ((key, _), db) => some { s.commit db with revoked := key.id :: s.revoked }
      | .error _ => some s
  | .resolvePrincipal presentedKey now =>
      match Emaild.resolvePrincipal rt now s.current presentedKey with
      | .ok (_, db) => some (s.commit db)
      | .error _ => some s
  | .domains a => (a.step c rt cipher s.history).map fun h => { s with history := h }
  | .stopProject id => some (s.commit (s.current.stopProject id))

/-! What the operations leave as it is. -/

/-- What a key keeps. -/
structure ApiKey.Endures (k k' : ApiKey) : Prop where
  row : k'.id = k.id
  project : k'.projectId = k.projectId
  digest : k'.keyHash = k.keyHash
  revoked : k.revokedAt ≠ none → k'.revokedAt ≠ none

/-- Mailboxes and keys stay. -/
structure Database.Endures (db db' : Database) : Prop where
  mailboxes : ∀ m ∈ db.mailboxes, m ∈ db'.mailboxes
  apiKeys : ∀ k ∈ db.apiKeys, ∃ k' ∈ db'.apiKeys, k.Endures k'

/-- No key and no scope is added either. -/
structure Database.Steady (db db' : Database) : Prop extends db.Endures db' where
  old : ∀ k' ∈ db'.apiKeys, ∃ k ∈ db.apiKeys, k.Endures k'
  scopes : db'.apiKeyScopes = db.apiKeyScopes

theorem ApiKey.Endures.refl (k : ApiKey) : k.Endures k := ⟨rfl, rfl, rfl, fun revoked => revoked⟩

theorem ApiKey.Endures.trans {k₁ k₂ k₃ : ApiKey} (first : k₁.Endures k₂)
    (second : k₂.Endures k₃) : k₁.Endures k₃ :=
  ⟨second.row.trans first.row, second.project.trans first.project,
    second.digest.trans first.digest, second.revoked ∘ first.revoked⟩

theorem Database.Endures.refl (db : Database) : db.Endures db :=
  ⟨fun _ mem => mem, fun k mem => ⟨k, mem, .refl k⟩⟩

theorem Database.Endures.trans {db₁ db₂ db₃ : Database} (first : db₁.Endures db₂)
    (second : db₂.Endures db₃) : db₁.Endures db₃ := by
  refine ⟨fun m mem => second.mailboxes m (first.mailboxes m mem), fun k mem => ?_⟩
  obtain ⟨k', mem', endures⟩ := first.apiKeys k mem
  obtain ⟨k'', mem'', endures'⟩ := second.apiKeys k' mem'
  exact ⟨k'', mem'', endures.trans endures'⟩

theorem Database.Steady.elsewhere {db db' : Database} (keys : db'.apiKeys = db.apiKeys)
    (scopes : db'.apiKeyScopes = db.apiKeyScopes)
    (mailboxes : ∀ m ∈ db.mailboxes, m ∈ db'.mailboxes) : db.Steady db' := by
  refine ⟨⟨mailboxes, fun k mem => ⟨k, ?_, .refl k⟩⟩, fun k mem => ⟨k, ?_, .refl k⟩, scopes⟩
  · rwa [keys]
  · rwa [← keys]

/-- A key is written that keeps what a key keeps. -/
theorem Database.Steady.modify (db : Database) (id : Nat) (f : ApiKey → ApiKey)
    (hf : ∀ k, (f k).id = k.id) (endures : ∀ k : ApiKey, k.Endures (f k)) :
    db.Steady { db with apiKeys := db.apiKeys.modify id f hf } := by
  have either (k : ApiKey) : k.Endures (if k.id = id then f k else k) := by
    split
    · exact endures k
    · exact .refl k
  refine ⟨⟨fun _ mem => mem, fun k mem => ⟨_, ?_, either k⟩⟩, fun k' mem => ?_, rfl⟩
  · exact (Table.mem_modify db.apiKeys id f hf).mpr ⟨k, mem, rfl⟩
  · obtain ⟨k, old, rfl⟩ := (Table.mem_modify db.apiKeys id f hf).mp mem
    exact ⟨k, old, either k⟩

theorem ApiKey.endures_revoke (now : Time) (k : ApiKey) : k.Endures (k.revoke now) :=
  ⟨rfl, rfl, rfl, fun _ => nofun⟩

theorem steady_touchLastUsed (now : Time) (db : Database) (key : ApiKey) :
    db.Steady (touchLastUsed now db key) := by
  unfold touchLastUsed
  split
  · exact .modify db key.id (fun k => { k with lastUsedAt := some now }) (fun _ => rfl)
      fun _ => ⟨rfl, rfl, rfl, fun revoked => revoked⟩
  · exact .elsewhere rfl rfl fun _ mem => mem

theorem steady_otherProjects {db db' : Database} (only : db.OtherProjects db') :
    db.Steady db' := by
  obtain ⟨projects, rfl⟩ := only
  exact .elsewhere rfl rfl fun _ mem => mem

theorem insertDomain_domains {db db' : Database} {id : Nat} {name : String}
    {captured : Option (List DnsRecord × Json)}
    (h : db.insertDomain rt id name captured = .ok db') :
    ∃ domains, db' = { db with domains := domains } := by
  obtain ⟨domain, _, h⟩ := ok_of_bind_ok h
  split at h
  · cases h
  split at h
  · rename_i domains _
    cases h
    exact ⟨domains, rfl⟩
  · cases h

theorem DomainChange.steady {h h' : History Database} {a : DomainAction σ}
    (change : DomainChange c rt h a h') :
    h' = h ∨ ∃ db, h' = h.commit db ∧ h.current.Steady db := by
  cases change with
  | idle => exact .inl rfl
  | unchanged | refreshed | suspended =>
      exact .inr ⟨_, rfl, .elsewhere rfl rfl fun _ mem => mem⟩
  | @provisioned _ _ _ _ _ _ _ _ _ domain mailbox db mem parts houses inserted =>
      refine .inr ⟨_, rfl, ?_⟩
      obtain ⟨_, mailboxes, row, rfl⟩ := insertMailbox_ok inserted
      obtain ⟨free, rfl⟩ := Table.insert?_eq_some.mp row
      unfold Database.promote
      have kept : ∀ m ∈ h.current.mailboxes, m ∈ h.current.mailboxes.insert mailbox free :=
        fun m old => (Table.mem_insert_iff _ _ free m).mpr (.inl old)
      split <;> exact .elsewhere rfl rfl kept
  | added inserted =>
      obtain ⟨domains, rfl⟩ := insertDomain_domains rt inserted
      exact .inr ⟨_, rfl, .elsewhere rfl rfl fun _ mem => mem⟩

/-- What an operation can do. -/
inductive KeyringChange (s : Keyring) : Keyring → Prop
  | idle : KeyringChange s s
  | steady {db : Database} (steady : s.current.Steady db) : KeyringChange s (s.commit db)
  | created {seen db : Database} {key : ApiKey} {fullKey : String} {mailboxes : List Mailbox}
      (value : seen ∈ s.current :: s.history.past) (known : ∀ m ∈ mailboxes, m ∈ seen.mailboxes)
      (free : s.current.apiKeys.find? key.id = none)
      (fresh : ∀ k ∈ s.current.apiKeys, k.keyHash ≠ key.keyHash)
      (digest : key.keyHash = rt.sha256 fullKey)
      (keys : db.apiKeys = s.current.apiKeys.insert key free)
      (scopes : ∀ p ∈ db.apiKeyScopes,
        p ∈ s.current.apiKeyScopes ∨ ∃ m ∈ mailboxes, p = ⟨key.id, m.id⟩)
      (same : db.mailboxes = s.current.mailboxes) :
      KeyringChange s { s.commit db with issued :=
        ⟨key, fullKey, (mailboxes.map Mailbox.address).insertionSort (· ≤ ·)⟩ :: s.issued }
  | revoked {seen db : Database} {key : ApiKey} (value : seen ∈ s.current :: s.history.past)
      (found : key ∈ seen.apiKeys) (steady : s.current.Steady db)
      (ends : key.revokedAt ≠ none ∨ ∀ k ∈ db.apiKeys, k.id = key.id → k.revokedAt ≠ none) :
      KeyringChange s { s.commit db with revoked := key.id :: s.revoked }

theorem wantedMailboxes_mem {db : Database} {addresses : List String} {mailboxes : List Mailbox}
    (h : wantedMailboxes rt db addresses = .ok mailboxes) : ∀ m ∈ mailboxes, m ∈ db.mailboxes := by
  unfold wantedMailboxes at h
  dsimp only at h
  split at h
  · cases h
  · split at h
    · cases h
      exact fun m listed => List.mem_of_mem_filter listed
    · cases h

theorem keyringChange_of_create {s : Keyring} {name projectName : String} {addresses : List String}
    {draw : KeyDraw} {ages : List Nat} {key : ApiKey} {fullKey : String} {returned : List String}
    {db : Database} (h : createApiKeyAmid rt (s.history.meets ages) s.current name projectName
      addresses draw = .ok ((key, fullKey, returned), db)) :
    KeyringChange rt s { s.commit db with issued := ⟨key, fullKey, returned⟩ :: s.issued } := by
  obtain ⟨name, _, h⟩ := ok_of_bind_ok h
  obtain ⟨project, _, h⟩ := ok_of_bind_ok h
  obtain ⟨mailboxes, wanted, h⟩ := ok_of_bind_ok h
  obtain ⟨_, _, h⟩ := ok_of_bind_ok h
  obtain ⟨middle, inserted, h⟩ := ok_of_bind_ok h
  obtain ⟨last, granted, h⟩ := ok_of_bind_ok h
  cases h
  obtain ⟨fresh, free, rfl⟩ := insertApiKey_ok inserted
  obtain ⟨⟨apiKeyScopes, rfl⟩, scopes⟩ := insertScopes_ok granted
  exact .created (History.meets_mem ages 1) (wantedMailboxes_mem rt wanted) free fresh rfl rfl
    scopes rfl

theorem keyringChange_of_revoke {s : Keyring} {name message : String} {now : Time} {age : Nat}
    {key : ApiKey} {db : Database}
    (h : revokeApiKeyAmid (s.history.read age) s.current name now = .ok ((key, message), db)) :
    KeyringChange rt s { s.commit db with revoked := key.id :: s.revoked } := by
  obtain ⟨found, rows, h⟩ := ok_of_bind_ok h
  cases found with
  | none => cases h
  | some key =>
      have found : key ∈ (s.history.read age).apiKeys :=
        (Table.filter_eq_singleton.mp (scalarOneOrNone_some.mp rows)).1.1
      dsimp only at h
      split at h
      · rename_i revokedAt before
        cases h
        exact .revoked (History.read_mem age) found (.elsewhere rfl rfl fun _ mem => mem)
          (.inl (by simp [before]))
      · cases h
        refine .revoked (History.read_mem age) found
          (.modify s.current key.id (ApiKey.revoke now) (fun _ => rfl) (ApiKey.endures_revoke now))
          (.inr fun k mem here => ?_)
        obtain ⟨k₀, _, rfl⟩ := (Table.mem_modify s.current.apiKeys key.id (ApiKey.revoke now)
          fun _ => rfl).mp mem
        by_cases e : k₀.id = key.id
        · simp [e, ApiKey.revoke]
        · rw [if_neg e] at here
          exact absurd here e

theorem keyringChange_of_step {s s' : Keyring} {a : KeyringAction σ}
    (step : a.step c rt cipher s = some s') : KeyringChange rt s s' := by
  cases a with
  | createProject name description id rival =>
      obtain rfl := Option.some.inj step
      exact .steady (steady_otherProjects (createProject_otherProjects ..))
  | createApiKey name projectName mailboxAddresses draw ages =>
      dsimp only [KeyringAction.step] at step
      split at step <;> obtain rfl := Option.some.inj step
      · rename_i created
        exact keyringChange_of_create rt created
      · exact .idle
  | revokeApiKey name now age =>
      dsimp only [KeyringAction.step] at step
      split at step <;> obtain rfl := Option.some.inj step
      · rename_i found
        exact keyringChange_of_revoke rt found
      · exact .idle
  | resolvePrincipal presentedKey now =>
      dsimp only [KeyringAction.step] at step
      split at step <;> obtain rfl := Option.some.inj step
      · rename_i resolved
        obtain ⟨key, _, _, _, _, _, rfl⟩ := resolvePrincipal_ok resolved
        exact .steady (steady_touchLastUsed now s.current key)
      · exact .idle
  | domains a =>
      obtain ⟨h, next, rfl⟩ := Option.map_eq_some_iff.mp step
      rcases (domainChange_of_step c rt cipher next).steady c rt with rfl | ⟨db, rfl, steady⟩
      · exact .idle
      · exact .steady steady
  | stopProject id =>
      obtain rfl := Option.some.inj step
      exact .steady (steady_otherProjects ⟨_, rfl⟩)

/-! What a run keeps. -/

/-- The constraints on the rows of keys: digests are unique, and every scope has a key. -/
structure Database.KeysSound (db : Database) : Prop where
  digests : ∀ a ∈ db.apiKeys, ∀ b ∈ db.apiKeys, a.keyHash = b.keyHash → a = b
  scopes : ∀ p ∈ db.apiKeyScopes, ∃ k ∈ db.apiKeys, k.id = p.apiKeyId

theorem Database.KeysSound.steady {db db' : Database} (sound : db.KeysSound)
    (steady : db.Steady db') : db'.KeysSound := by
  refine ⟨fun a ha b hb same => ?_, fun p mem => ?_⟩
  · obtain ⟨a₀, aOld, aEndures⟩ := steady.old a ha
    obtain ⟨b₀, bOld, bEndures⟩ := steady.old b hb
    obtain rfl := sound.digests a₀ aOld b₀ bOld
      (aEndures.digest.symm.trans (same.trans bEndures.digest))
    exact Table.eq_of_key_eq ha hb (aEndures.row.trans bEndures.row.symm)
  · rw [steady.scopes] at mem
    obtain ⟨k, old, here⟩ := sound.scopes p mem
    obtain ⟨k', new, endures⟩ := steady.apiKeys k old
    exact ⟨k', new, endures.row.trans here⟩

/-- What a key was created with: its row is the one of its digest, and its scopes are for
mailboxes of its addresses. -/
structure IssuedKey.Holds (rt : Runtime) (g : IssuedKey) (db : Database) : Prop where
  digest : g.key.keyHash = rt.sha256 g.fullKey
  row : ∃ k ∈ db.apiKeys, g.key.Endures k
  scopes : ∀ p ∈ db.apiKeyScopes, p.apiKeyId = g.key.id →
    ∃ m ∈ db.mailboxes, m.id = p.mailboxId ∧ m.address ∈ g.addresses

theorem IssuedKey.Holds.endures {rt : Runtime} {g : IssuedKey} {db db' : Database}
    (holds : g.Holds rt db) (endures : db.Endures db')
    (scopes : ∀ p ∈ db'.apiKeyScopes, p.apiKeyId = g.key.id → p ∈ db.apiKeyScopes) :
    g.Holds rt db' := by
  refine ⟨holds.digest, ?_, fun p mem here => ?_⟩
  · obtain ⟨k, mem, first⟩ := holds.row
    obtain ⟨k', mem', second⟩ := endures.apiKeys k mem
    exact ⟨k', mem', first.trans second⟩
  · obtain ⟨m, mem, rest⟩ := holds.scopes p (scopes p mem here) here
    exact ⟨m, endures.mailboxes m mem, rest⟩

/-- The row of a revoked key. -/
def Database.Revoked (db : Database) (id : Nat) : Prop :=
  ∃ k ∈ db.apiKeys, k.id = id ∧ k.revokedAt ≠ none

theorem Database.Revoked.endures {db db' : Database} {id : Nat} (revoked : db.Revoked id)
    (endures : db.Endures db') : db'.Revoked id := by
  obtain ⟨k, mem, here, ended⟩ := revoked
  obtain ⟨k', mem', kept⟩ := endures.apiKeys k mem
  exact ⟨k', mem', kept.row.trans here, kept.revoked ended⟩

structure Keyring.Sound (rt : Runtime) (s : Keyring) : Prop where
  keys : s.current.KeysSound
  endures : s.history.All fun db => db.Endures s.current
  issued : ∀ g ∈ s.issued, g.Holds rt s.current
  revoked : ∀ id ∈ s.revoked, s.current.Revoked id

theorem Keyring.Sound.commit {s : Keyring} {db : Database} (sound : s.Sound rt)
    (steady : s.current.Steady db) : (s.commit db).Sound rt where
  keys := sound.keys.steady steady
  endures := sound.endures.grow (.refl _) .trans steady.toEndures
  issued := fun g mem => (sound.issued g mem).endures steady.toEndures
    fun _ new _ => steady.scopes ▸ new
  revoked := fun id mem => (sound.revoked id mem).endures steady.toEndures

/-- The row that a revocation has found, in an older value of the store perhaps, is revoked
in the last one. -/
theorem Keyring.Sound.ended {s : Keyring} {seen db : Database} {key : ApiKey}
    (sound : s.Sound rt) (value : seen ∈ s.current :: s.history.past) (found : key ∈ seen.apiKeys)
    (steady : s.current.Steady db)
    (ends : key.revokedAt ≠ none ∨ ∀ k ∈ db.apiKeys, k.id = key.id → k.revokedAt ≠ none) :
    db.Revoked key.id := by
  have endures := (sound.endures seen value).trans steady.toEndures
  obtain ⟨k, mem, kept⟩ := endures.apiKeys key found
  refine ⟨k, mem, kept.row, ?_⟩
  rcases ends with before | now
  · exact kept.revoked before
  · exact now k mem kept.row

theorem KeyringChange.sound {s s' : Keyring} (change : KeyringChange rt s s')
    (sound : s.Sound rt) : s'.Sound rt := by
  cases change with
  | idle => exact sound
  | steady steady => exact sound.commit rt steady
  | @revoked seen db key value found steady ends =>
      have next := sound.commit rt steady
      refine ⟨next.keys, next.endures, next.issued, fun id mem => ?_⟩
      rcases List.mem_cons.mp mem with rfl | before
      · exact sound.ended rt value found steady ends
      · exact next.revoked id before
  | @created seen db key fullKey mailboxes value known free fresh digest keys scopes same =>
      have isKey : ∀ k, k ∈ db.apiKeys ↔ k ∈ s.current.apiKeys ∨ k = key := fun k => by
        rw [keys]
        exact Table.mem_insert
      have endures : s.current.Endures db :=
        ⟨fun m mem => same ▸ mem, fun k mem => ⟨k, (isKey k).mpr (.inl mem), .refl k⟩⟩
      -- no key of before has the new id, so the new scopes are of the new key only
      have other : ∀ k ∈ s.current.apiKeys, k.id ≠ key.id := Table.find?_eq_none.mp free
      refine ⟨⟨fun a ha b hb alike => ?_, fun p mem => ?_⟩,
        sound.endures.grow (.refl _) .trans endures, fun g mem => ?_,
        fun id mem => (sound.revoked id mem).endures endures⟩
      · rcases (isKey a).mp ha with aOld | rfl <;> rcases (isKey b).mp hb with bOld | rfl
        · exact sound.keys.digests a aOld b bOld alike
        · exact absurd alike (fresh a aOld)
        · exact absurd alike.symm (fresh b bOld)
        · rfl
      · rcases scopes p mem with old | ⟨m, _, rfl⟩
        · obtain ⟨k, before, here⟩ := sound.keys.scopes p old
          exact ⟨k, (isKey k).mpr (.inl before), here⟩
        · exact ⟨key, (isKey key).mpr (.inr rfl), rfl⟩
      · rcases List.mem_cons.mp mem with rfl | before
        · refine ⟨digest, ⟨key, (isKey key).mpr (.inr rfl), .refl key⟩, fun p mem here => ?_⟩
          rcases scopes p mem with old | ⟨m, listed, rfl⟩
          · obtain ⟨k, before, of⟩ := sound.keys.scopes p old
            exact absurd (of.trans here) (other k before)
          · refine ⟨m, endures.mailboxes m ((sound.endures seen value).mailboxes m
              (known m listed)), rfl, ?_⟩
            exact (List.mem_insertionSort _).mpr (List.mem_map_of_mem listed)
        · have holds := sound.issued g before
          refine holds.endures endures fun p new here => ?_
          rcases scopes p new with old | ⟨m, _, rfl⟩
          · exact old
          · obtain ⟨k, mem, kept⟩ := holds.row
            exact absurd (kept.row.trans here.symm) (other k mem)

theorem sound_of_run {start : Database} (keys : start.KeysSound) {s : Keyring}
    (run : Reaches (KeyringAction.step c rt cipher) Any (.start start) s) : s.Sound rt := by
  refine run.invariant ⟨keys, .start (.refl _), nofun, nofun⟩ fun _ _ _ _ step sound =>
    (keyringChange_of_step c rt cipher step).sound rt sound

/-- In every run, a key may send as nothing but the addresses it was created with, and as
nothing at all while its project is stopped and once it has been revoked. -/
theorem authority_contained {start : Database} (keys : start.KeysSound) {s : Keyring}
    (run : Reaches (KeyringAction.step c rt cipher) Any (.start start) s) {g : IssuedKey}
    (issued : g ∈ s.issued) :
    s.current.authority rt g.fullKey ⊆ { address | address ∈ g.addresses } ∧
      (∀ project ∈ s.current.projects, project.id = g.key.projectId → project.active = false →
        s.current.authority rt g.fullKey = ∅) ∧
      (g.key.id ∈ s.revoked → s.current.authority rt g.fullKey = ∅) := by
  have sound := sound_of_run c rt cipher keys run
  have holds := sound.issued g issued
  obtain ⟨row, mem, kept⟩ := holds.row
  -- the row that a presented key is accepted for is the row of the key
  have isRow : ∀ k ∈ s.current.apiKeys, k.keyHash = rt.sha256 g.fullKey → k = row :=
    fun k old digest => sound.keys.digests k old row mem
      (digest.trans (holds.digest.symm.trans kept.digest.symm))
  refine ⟨fun address allowed => ?_, fun project there here stopped => ?_, fun revoked => ?_⟩
  · obtain ⟨k, old, digest, _, _, m, listed, rfl, granted⟩ := mem_authority allowed
    obtain rfl := isRow k old digest
    obtain ⟨m', listed', same, known⟩ := holds.scopes _ granted kept.row
    rwa [Table.eq_of_key_eq listed' listed same] at known
  · refine Set.eq_empty_iff_forall_notMem.mpr fun address allowed => ?_
    obtain ⟨k, old, digest, _, ⟨p, there', here', active⟩, _⟩ := mem_authority allowed
    obtain rfl := isRow k old digest
    rw [Table.eq_of_key_eq there there' (here.trans (kept.project.symm.trans here'.symm)),
      active] at stopped
    cases stopped
  · refine Set.eq_empty_iff_forall_notMem.mpr fun address allowed => ?_
    obtain ⟨k, old, digest, live, _⟩ := mem_authority allowed
    obtain rfl := isRow k old digest
    obtain ⟨k', mem', here, ended⟩ := sound.revoked _ revoked
    rw [Table.eq_of_key_eq mem' mem (here.trans kept.row.symm)] at ended
    exact ended live

end Runs

namespace Sample

/-- A key is created for the mailbox there is, and another mailbox comes. -/
def lifeOfKey : List (KeyringAction Unit) := [.createProject "shop" none 1 none,
  .createApiKey "web" "shop" ["noreply@shop.example"] ⟨1, "first"⟩ [],
  .domains (.provision { address := "orders@shop.example", allowAdditionalIdentity := true } 2
    passwordOne () 0 0 0)]

abbrev keyringStep := KeyringAction.step payloadClient runtime cipher

/-- What is accepted from a sender that shows the key. -/
def sendsAs (db : Database) (presentedKey fromValue : String) : Option (Option String) :=
  match resolvePrincipal runtime 0 db presentedKey with
  | .ok (principal, _) => (authorizeSender runtime principal fromValue).toOption.map Prod.fst
  | .error _ => none

theorem mem_authority_of_sendsAs {db : Database} {presentedKey fromValue address : String}
    {displayName : Option String}
    (parsed : parseFromAddress runtime fromValue = .ok (displayName, address))
    (h : sendsAs db presentedKey fromValue = some displayName) :
    address ∈ db.authority runtime presentedKey := by
  unfold sendsAs at h
  split at h
  · rename_i principal db' resolved
    cases sends : authorizeSender runtime principal fromValue with
    | error e => rw [sends] at h; cases h
    | ok result =>
        rw [sends] at h
        obtain rfl := Option.some.inj h
        exact ⟨0, principal, db', fromValue, result.1, result.2, resolved, parsed, sends⟩
  · cases h

def webKey : IssuedKey where
  key := { id := 1, projectId := 1, name := "web", keyHash := "em_live_first"
           keyPrefix := "em_live_first", active := true, lastUsedAt := none, revokedAt := none }
  fullKey := "em_live_first"
  addresses := ["noreply@shop.example"]

def inService : Keyring := final keyringStep (.start withoutKeys) lifeOfKey

def outOfService : Keyring := final keyringStep inService [.revokeApiKey "web" 0 0]

end Sample

/-- The key sends as the mailbox it was created for and not as the one that came later, and
as none once it has been revoked. -/
theorem shop_key_contained :
    Reaches Sample.keyringStep Any (.start Sample.withoutKeys) Sample.inService ∧
    (∃ m ∈ Sample.inService.current.mailboxes, m.address = "orders@shop.example") ∧
    "noreply@shop.example" ∈ Sample.inService.current.authority Sample.runtime "em_live_first" ∧
    "orders@shop.example" ∉ Sample.inService.current.authority Sample.runtime "em_live_first" ∧
    Reaches Sample.keyringStep Any Sample.inService Sample.outOfService ∧
    Sample.outOfService.current.authority Sample.runtime "em_live_first" = ∅ := by
  have sound : Sample.withoutKeys.KeysSound := ⟨nofun, nofun⟩
  obtain ⟨run, seen⟩ : Reaches Sample.keyringStep Any (.start Sample.withoutKeys) Sample.inService ∧
      (decide (Sample.webKey ∈ Sample.inService.issued),
        Sample.inService.current.mailboxes.rows.any fun m => m.address = "orders@shop.example",
        Sample.sendsAs Sample.inService.current "em_live_first" "noreply@shop.example") =
          (true, true, some none) :=
    reaches_final (fun s : Keyring => (decide (Sample.webKey ∈ s.issued),
      s.current.mailboxes.rows.any fun m => m.address = "orders@shop.example",
      Sample.sendsAs s.current "em_live_first" "noreply@shop.example"))
      (by decide +kernel) fun _ _ _ => trivial
  obtain ⟨run', seen'⟩ : Reaches Sample.keyringStep Any Sample.inService Sample.outOfService ∧
      (decide (Sample.webKey ∈ Sample.outOfService.issued),
        decide (Sample.webKey.key.id ∈ Sample.outOfService.revoked)) = (true, true) :=
    reaches_final (fun s : Keyring => (decide (Sample.webKey ∈ s.issued),
      decide (Sample.webKey.key.id ∈ s.revoked))) (by decide +kernel) fun _ _ _ => trivial
  simp only [Prod.mk.injEq, decide_eq_true_eq] at seen seen'
  obtain ⟨m, mem, named⟩ := List.any_eq_true.mp seen.2.1
  refine ⟨run, ⟨m, mem, of_decide_eq_true named⟩,
    Sample.mem_authority_of_sendsAs (by decide +kernel) seen.2.2, fun widened => ?_, run', ?_⟩
  · have among := (authority_contained Sample.payloadClient Sample.runtime Sample.cipher sound run
      seen.1).1 widened
    exact absurd among (by decide)
  · exact (authority_contained Sample.payloadClient Sample.runtime Sample.cipher sound
      (run.trans run') seen'.1).2.2 seen'.2

end Emaild
