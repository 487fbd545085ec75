import Emaild.Ingest
import Emaild.Transition.Reaches

/-!
Projects and API keys. Names of revoked keys may be used again, so a name may be
carried by several rows, while every lookup by name expects one at most.
-/
namespace Emaild
open Relational Text Transition

/-- `MAX_NAME_LENGTH` -/
def maxNameLength : Nat := 64

/-- `_clean_name` -/
def cleanName (value what : String) : Except Raised String :=
  let name := strip value
  if name = "" then .error (.management s!"A {what} name is required.")
  else if maxNameLength < name.length then
    .error (.management s!"That {what} name is too long (max {maxNameLength} characters).")
  else .ok name

def scalarOneOrNone {α : Type} : List α → Except Raised (Option α)
  | [] => .ok none
  | [a] => .ok (some a)
  | _ => .error .multipleResultsFound

theorem scalarOneOrNone_some {α : Type} {rows : List α} {a : α} :
    scalarOneOrNone rows = .ok (some a) ↔ rows = [a] := by
  match rows with
  | [] | [_] | _ :: _ :: _ => simp [scalarOneOrNone]

theorem scalarOneOrNone_none {α : Type} {rows : List α} :
    scalarOneOrNone rows = .ok none ↔ rows = [] := by
  match rows with
  | [] | [_] | _ :: _ :: _ => simp [scalarOneOrNone]

/-- Flushing a new project: its name is unique. -/
def Database.insertProject? (db : Database) (project : Project) : Option Database :=
  if db.projects.rows.any fun p => p.name = project.name then none
  else (db.projects.insert? project).map fun projects => { db with projects := projects }

/-- Another creator commits its project, if it can. -/
def Database.commitRival (rival : Option Project) (db : Database) : Database :=
  (rival.bind db.insertProject?).getD db

def projectExists (name : String) : Raised :=
  .management s!"A project named '{name}' already exists."

/-- `create_project`, while another creator may be faster. -/
def createProject (name : String) (description : Option String) (id : Nat)
    (rival : Option Project) : Tx Database Raised Project := do
  let name ← Tx.lift (cleanName name "project")
  let rows := (← Tx.look).working.projects.rows.filter fun p => p.name = name
  match ← Tx.lift (scalarOneOrNone rows) with
  | some _ => throw (projectExists name)
  | none =>
      Tx.interfere (Database.commitRival rival)
      let text := strip (orEmpty description)
      let project : Project :=
        { id := id, name := name, description := if text = "" then none else some text
          active := true }
      match (← Tx.look).working.insertProject? project with
      | some db =>
          Tx.write fun _ => db
          return project
      | none =>
          Tx.rollback
          throw (projectExists name)

/-- `API_KEY_PREFIX` -/
def apiKeyPrefix : String := "em_live_"

/-- `generate_api_key`: the key, its digest and the part that is displayed. -/
def generateApiKey (rt : Runtime) (token : String) : String × String × String :=
  let fullKey := apiKeyPrefix ++ token
  (fullKey, rt.sha256 fullKey, clip (apiKeyPrefix.length + 6) fullKey)

/-- What a run of `create_api_key` draws: the row id and the random token. -/
structure KeyDraw where
  id : Nat
  token : String

/-- The project a key is created for. -/
def usableProject (db : Database) (projectName : String) : Except Raised Project := do
  match ← scalarOneOrNone (db.projects.rows.filter fun p => p.name = projectName) with
  | none => .error (.management s!"No such project: {projectName}")
  | some project =>
      if project.active then return project
      else .error (.management
        s!"Project '{projectName}' is inactive, so a key for it could not authenticate.")

/-- The mailboxes a key is scoped to. -/
def wantedMailboxes (rt : Runtime) (db : Database) (addresses : List String) :
    Except Raised (List Mailbox) :=
  let wanted := ((addresses.filter fun a => strip a ≠ "").map fun a => rt.lower (strip a)).dedup
  if wanted.isEmpty then
    .error (.management ("Select at least one sender identity. " ++
      "A key with no scopes cannot send as anything."))
  else
    let mailboxes := db.mailboxes.rows.filter fun m => m.address ∈ wanted
    let missing := wanted.filter fun a => a ∉ mailboxes.map Mailbox.address
    if missing.isEmpty then .ok mailboxes
    else .error (.management s!"Unknown sender identities: {joinSorted missing}")

/-- Revoked names may be used again. -/
def checkDuplicate (db : Database) (name : String) : Except Raised PUnit := do
  match ← scalarOneOrNone (db.apiKeys.rows.filter fun k => k.name = name) with
  | none => return ⟨⟩
  | some duplicate =>
      if duplicate.revokedAt = none then
        .error (.management s!"An active key named '{name}' already exists.")
      else return ⟨⟩

/-- Flushing a new key: its digest is unique. -/
def Database.insertApiKey (db : Database) (key : ApiKey) : Except Raised Database :=
  if db.apiKeys.rows.any fun k => k.keyHash = key.keyHash then .error .integrityError
  else match db.apiKeys.insert? key with
    | some apiKeys => .ok { db with apiKeys := apiKeys }
    | none => .error .integrityError

def Database.insertScope (db : Database) (scope : ApiKeyScope) : Except Raised Database :=
  match db.apiKeyScopes.insert? scope with
  | some apiKeyScopes => .ok { db with apiKeyScopes := apiKeyScopes }
  | none => .error .integrityError

/-- `create_api_key`: the row, the key itself and the addresses it may send as. -/
def createApiKey (rt : Runtime) (db : Database) (name projectName : String)
    (mailboxAddresses : List String) (draw : KeyDraw) :
    Except Raised ((ApiKey × String × List String) × Database) := do
  let name ← cleanName name "key"
  let project ← usableProject db projectName
  let mailboxes ← wantedMailboxes rt db mailboxAddresses
  checkDuplicate db name
  let (fullKey, keyHash, keyPrefix) := generateApiKey rt draw.token
  let key : ApiKey :=
    { id := draw.id, projectId := project.id, name := name, keyHash := keyHash
      keyPrefix := keyPrefix, active := true, lastUsedAt := none, revokedAt := none }
  let db ← db.insertApiKey key
  let db ← mailboxes.foldlM (fun db m => db.insertScope ⟨key.id, m.id⟩) db
  return ((key, fullKey, (mailboxes.map Mailbox.address).insertionSort (· ≤ ·)), db)

def ApiKey.revoke (now : Time) (key : ApiKey) : ApiKey :=
  { key with revokedAt := some now, active := false }

theorem ApiKey.revoke_id (now : Time) (key : ApiKey) : (key.revoke now).id = key.id := rfl

/-- `revoke_api_key` -/
def revokeApiKey (db : Database) (name : String) (now : Time) :
    Except Raised (String × Database) := do
  match ← scalarOneOrNone (db.apiKeys.rows.filter fun k => k.name = name) with
  | none => .error (.management s!"No such key: {name}")
  | some key =>
      match key.revokedAt with
      | some revokedAt =>
        return (s!"Key '{name}' was already revoked at {minuteStamp revokedAt}.", db)
      | none =>
          return (s!"Revoked '{name}'. Effective immediately -- authentication is never cached.",
            { db with apiKeys := db.apiKeys.modify key.id (ApiKey.revoke now) })

/-! What the operations do to the key rows. -/

theorem checkDuplicate_ok {db : Database} {name : String} (h : checkDuplicate db name = .ok ⟨⟩) :
    ∀ k ∈ db.apiKeys, k.name = name → k.revokedAt ≠ none := by
  intro k mem named
  obtain ⟨found, rows, rest⟩ := ok_of_bind_ok h
  cases found with
  | none =>
      have absent := List.filter_eq_nil_iff.mp (scalarOneOrNone_none.mp rows) k mem
      simp [named] at absent
  | some duplicate =>
      have only := (Table.filter_eq_singleton.mp (scalarOneOrNone_some.mp rows)).2
      obtain rfl := only k mem (by simpa using named)
      intro unrevoked
      simp [unrevoked] at rest

theorem insertApiKey_ok {db db' : Database} {key : ApiKey} (h : db.insertApiKey key = .ok db') :
    (∀ k ∈ db.apiKeys, k.keyHash ≠ key.keyHash) ∧
      ∃ free, db' = { db with apiKeys := db.apiKeys.insert key free } := by
  unfold Database.insertApiKey at h
  split at h
  · cases h
  · rename_i unused
    split at h
    · rename_i apiKeys inserted
      cases h
      obtain ⟨free, rfl⟩ := Table.insert?_eq_some.mp inserted
      refine ⟨fun k mem same => unused (List.any_eq_true.mpr ⟨k, mem, ?_⟩), free, rfl⟩
      exact decide_eq_true same
    · cases h

theorem insertScope_ok {db db' : Database} {pair : ApiKeyScope}
    (h : db.insertScope pair = .ok db') :
    ∃ free, db' = { db with apiKeyScopes := db.apiKeyScopes.insert pair free } := by
  unfold Database.insertScope at h
  split at h
  · rename_i apiKeyScopes inserted
    cases h
    obtain ⟨free, rfl⟩ := Table.insert?_eq_some.mp inserted
    exact ⟨free, rfl⟩
  · cases h

/-- The scopes that are written are those of the key and the mailboxes. -/
theorem insertScopes_ok {keyId : Nat} {mailboxes : List Mailbox} {db db' : Database}
    (h : mailboxes.foldlM (fun db m => db.insertScope ⟨keyId, m.id⟩) db = .ok db') :
    (∃ apiKeyScopes, db' = { db with apiKeyScopes := apiKeyScopes }) ∧
      ∀ p ∈ db'.apiKeyScopes, p ∈ db.apiKeyScopes ∨ ∃ m ∈ mailboxes, p = ⟨keyId, m.id⟩ := by
  induction mailboxes generalizing db with
  | nil =>
      cases h
      exact ⟨⟨_, rfl⟩, fun p mem => .inl mem⟩
  | cons m mailboxes ih =>
      obtain ⟨next, inserted, rest⟩ := ok_of_bind_ok h
      obtain ⟨⟨apiKeyScopes, rfl⟩, scopes⟩ := ih rest
      obtain ⟨free, rfl⟩ := insertScope_ok inserted
      refine ⟨⟨apiKeyScopes, rfl⟩, fun p mem => ?_⟩
      rcases scopes p mem with old | ⟨m', listed, made⟩
      · rcases (Table.mem_insert_iff _ _ free p).mp old with before | new
        · exact .inl before
        · exact .inr ⟨m, List.mem_cons_self, new⟩
      · exact .inr ⟨m', List.mem_cons_of_mem m listed, made⟩

/-- The row that is written is in use and belongs to the project that was named. No key of
its name was in use, and none had its digest. -/
theorem createApiKey_ok {rt : Runtime} {db db' : Database} {name projectName : String}
    {addresses : List String} {draw : KeyDraw} {row : ApiKey} {plaintext : String}
    {senders : List String}
    (h : createApiKey rt db name projectName addresses draw =
      .ok ((row, plaintext, senders), db')) :
    ∃ project, usableProject db projectName = .ok project ∧ db'.projects = db.projects ∧
      row.projectId = project.id ∧ row.active = true ∧ row.revokedAt = none ∧
      plaintext = apiKeyPrefix ++ draw.token ∧ row.keyHash = rt.sha256 plaintext ∧
      (∀ k ∈ db.apiKeys, k.keyHash ≠ row.keyHash) ∧
      (∀ k ∈ db.apiKeys, k.name = row.name → k.revokedAt ≠ none) ∧
      ∃ free, db'.apiKeys = db.apiKeys.insert row free := by
  obtain ⟨name, _, h⟩ := ok_of_bind_ok h
  obtain ⟨project, usable, h⟩ := ok_of_bind_ok h
  obtain ⟨mailboxes, _, h⟩ := ok_of_bind_ok h
  obtain ⟨_, unused, h⟩ := ok_of_bind_ok h
  obtain ⟨middle, inserted, h⟩ := ok_of_bind_ok h
  obtain ⟨last, scopes, h⟩ := ok_of_bind_ok h
  cases h
  obtain ⟨fresh, free, rfl⟩ := insertApiKey_ok inserted
  obtain ⟨⟨_, rfl⟩, _⟩ := insertScopes_ok scopes
  exact ⟨project, usable, rfl, rfl, rfl, rfl, rfl, rfl, fresh, checkDuplicate_ok unused,
    free, rfl⟩

/-- The store with nothing but its projects changed. -/
def Database.OtherProjects (db db' : Database) : Prop :=
  ∃ projects, db' = { db with projects := projects }

theorem Database.OtherProjects.trans {db₁ db₂ db₃ : Database} (first : db₁.OtherProjects db₂)
    (second : db₂.OtherProjects db₃) : db₁.OtherProjects db₃ := by
  obtain ⟨_, rfl⟩ := first
  obtain ⟨projects, rfl⟩ := second
  exact ⟨projects, rfl⟩

theorem insertProject?_some {db db' : Database} {project : Project}
    (h : db.insertProject? project = some db') : db.OtherProjects db' := by
  unfold Database.insertProject? at h
  split at h
  · cases h
  · obtain ⟨projects, _, rfl⟩ := Option.map_eq_some_iff.mp h
    exact ⟨projects, rfl⟩

theorem commitRival_otherProjects (rival : Option Project) (db : Database) :
    db.OtherProjects (db.commitRival rival) := by
  unfold Database.commitRival
  cases h : rival.bind db.insertProject? with
  | none => exact ⟨db.projects, rfl⟩
  | some db' =>
      obtain ⟨project, _, inserted⟩ := Option.bind_eq_some_iff.mp h
      exact insertProject?_some inserted

/-- Whether it fails or not, and whoever is faster, nothing but projects is left behind. -/
theorem createProject_leaves (db : Database) (name : String) (description : Option String)
    (id : Nat) (rival : Option Project) :
    (createProject name description id rival).Leaves db.OtherProjects (.begin db) := by
  have same : db.OtherProjects db := ⟨db.projects, rfl⟩
  unfold createProject Tx.Leaves
  simp only [Tx.exec_bind, Tx.exec_lift, Tx.exec_look, Session.begin]
  cases cleanName name "project" with
  | error e => exact ⟨same, same⟩
  | ok name =>
      dsimp only
      cases scalarOneOrNone (db.projects.rows.filter fun p => p.name = name) with
      | error e => exact ⟨same, same⟩
      | ok found =>
          cases found with
          | some _ => exact ⟨same, same⟩
          | none =>
              simp only [Tx.exec_bind, Tx.exec_interfere, Tx.exec_look]
              have rivals := commitRival_otherProjects rival db
              generalize db.commitRival rival = store at rivals ⊢
              generalize Project.mk .. = project
              cases inserted : store.insertProject? project with
              | none => exact ⟨rivals, rivals⟩
              | some db' => exact ⟨rivals, rivals.trans (insertProject?_some inserted)⟩

theorem createProject_otherProjects (db : Database) (name : String) (description : Option String)
    (id : Nat) (rival : Option Project) :
    db.OtherProjects (sessionScope (createProject name description id rival) db).2 :=
  (createProject_leaves db name description id rival).sessionScope

theorem createProject_apiKeys (db : Database) (name : String) (description : Option String)
    (id : Nat) (rival : Option Project) :
    (sessionScope (createProject name description id rival) db).2.apiKeys = db.apiKeys := by
  obtain ⟨projects, only⟩ := createProject_otherProjects db name description id rival
  rw [only]

/-- Revocation writes the only row of the name, and needs it to be the only one. -/
theorem revokeApiKey_ok {db db' : Database} {name message : String} {now : Time}
    (h : revokeApiKey db name now = .ok (message, db')) :
    ∃ key, (db.apiKeys.rows.filter fun k => k.name = name) = [key] ∧
      (db' = db ∨ db'.apiKeys = db.apiKeys.modify key.id (ApiKey.revoke now)) := by
  obtain ⟨found, rows, h⟩ := ok_of_bind_ok h
  cases found with
  | none => cases h
  | some key =>
      refine ⟨key, scalarOneOrNone_some.mp rows, ?_⟩
      dsimp only at h
      split at h <;> cases h
      · exact .inl rfl
      · exact .inr rfl

theorem touchLastUsed_apiKeys (now : Time) (db : Database) (key : ApiKey) :
    (touchLastUsed now db key).apiKeys = db.apiKeys ∨
      (touchLastUsed now db key).apiKeys =
        db.apiKeys.modify key.id fun k => { k with lastUsedAt := some now } := by
  unfold touchLastUsed
  split
  · exact .inr rfl
  · exact .inl rfl

/-! Histories of the operations. -/

inductive KeyAction
  | createProject (name : String) (description : Option String) (id : Nat)
      (rival : Option Project)
  | createApiKey (name projectName : String) (mailboxAddresses : List String) (draw : KeyDraw)
  | revokeApiKey (name : String) (now : Time)
  | resolvePrincipal (presentedKey : String) (now : Time)

/-- One operation in a session of its own: what fails leaves nothing behind. -/
def manage (rt : Runtime) (db : Database) : KeyAction → Option Database
  | .createProject name description id rival =>
      some (sessionScope (createProject name description id rival) db).2
  | .createApiKey name projectName mailboxAddresses draw =>
      match createApiKey rt db name projectName mailboxAddresses draw with
      | .ok (_, db') => some db'
      | .error _ => some db
  | .revokeApiKey name now =>
      match revokeApiKey db name now with
      | .ok (_, db') => some db'
      | .error _ => some db
  | .resolvePrincipal presentedKey now =>
      match resolvePrincipal rt now db presentedKey with
      | .ok (_, db') => some db'
      | .error _ => some db

/-- What one operation can do to the key rows. -/
inductive KeyChange (keys : Table ApiKey.id) : Table ApiKey.id → Prop
  | none : KeyChange keys keys
  | created (key : ApiKey) (free : keys.find? key.id = none)
      (unused : ∀ k ∈ keys, k.name = key.name → k.revokedAt ≠ none) :
      KeyChange keys (keys.insert key free)
  | revoked (id : Nat) (now : Time) : KeyChange keys (keys.modify id (ApiKey.revoke now))
  | touched (id : Nat) (now : Time) :
      KeyChange keys (keys.modify id fun k => { k with lastUsedAt := some now })

theorem keyChange_of_manage {rt : Runtime} {db db' : Database} {a : KeyAction}
    (h : manage rt db a = some db') : KeyChange db.apiKeys db'.apiKeys := by
  cases a with
  | createProject name description id rival =>
      obtain rfl := Option.some.inj h
      rw [createProject_apiKeys]
      exact .none
  | createApiKey name projectName mailboxAddresses draw =>
      dsimp only [manage] at h
      split at h <;> cases h
      · rename_i created
        obtain ⟨_, -, -, -, -, -, -, -, -, unused, free, rows⟩ := createApiKey_ok created
        rw [rows]
        exact .created _ free unused
      · exact .none
  | revokeApiKey name now =>
      dsimp only [manage] at h
      split at h <;> cases h
      · rename_i revoked
        obtain ⟨key, _, rfl | rows⟩ := revokeApiKey_ok revoked
        · exact .none
        · rw [rows]
          exact .revoked key.id now
      · exact .none
  | resolvePrincipal presentedKey now =>
      dsimp only [manage] at h
      split at h <;> cases h
      · rename_i resolved
        obtain ⟨key, _, _, _, _, _, rfl⟩ := resolvePrincipal_ok resolved
        rcases touchLastUsed_apiKeys now db key with rows | rows <;> rw [rows]
        · exact .none
        · exact .touched key.id now
      · exact .none

/-- No name is carried by two keys that are not revoked. -/
def NamesInUseOnce (keys : Table ApiKey.id) : Prop :=
  ∀ a ∈ keys, ∀ b ∈ keys, a.revokedAt = none → b.revokedAt = none → a.name = b.name → a = b

theorem NamesInUseOnce.modify {keys : Table ApiKey.id} (once : NamesInUseOnce keys) (id : Nat)
    (f : ApiKey → ApiKey) (hf : ∀ k, (f k).id = k.id)
    (keeps : ∀ k, (f k).revokedAt = none → k.revokedAt = none ∧ (f k).name = k.name) :
    NamesInUseOnce (keys.modify id f hf) := by
  have kept : ∀ k : ApiKey, (if k.id = id then f k else k).revokedAt = none →
      k.revokedAt = none ∧ (if k.id = id then f k else k).name = k.name := by
    intro k live
    split at live
    · rename_i here
      simpa only [if_pos here] using keeps k live
    · rename_i elsewhere
      simp [elsewhere, live]
  intro a ha b hb aLive bLive named
  obtain ⟨a₀, aOld, rfl⟩ := (Table.mem_modify ..).mp ha
  obtain ⟨b₀, bOld, rfl⟩ := (Table.mem_modify ..).mp hb
  obtain ⟨aLive, aNamed⟩ := kept a₀ aLive
  obtain ⟨bLive, bNamed⟩ := kept b₀ bLive
  rw [once a₀ aOld b₀ bOld aLive bLive (aNamed.symm.trans (named.trans bNamed))]

theorem KeyChange.namesInUseOnce {keys keys' : Table ApiKey.id} (change : KeyChange keys keys')
    (once : NamesInUseOnce keys) : NamesInUseOnce keys' := by
  cases change with
  | none => exact once
  | created key free unused =>
      intro a ha b hb aLive bLive named
      rcases Table.mem_insert.mp ha with aOld | aNew <;>
        rcases Table.mem_insert.mp hb with bOld | bNew
      · exact once a aOld b bOld aLive bLive named
      · exact absurd aLive (unused a aOld (named.trans (congrArg ApiKey.name bNew)))
      · exact absurd bLive (unused b bOld (named.symm.trans (congrArg ApiKey.name aNew)))
      · exact aNew.trans bNew.symm
  | revoked id now =>
      exact once.modify id (ApiKey.revoke now) (fun _ => rfl) fun _ live => nomatch live
  | touched id now =>
      exact once.modify id (fun k => { k with lastUsedAt := some now }) (fun _ => rfl)
        fun _ live => ⟨live, rfl⟩

theorem namesInUseOnce_of_run {rt : Runtime} {start db : Database}
    (empty : start.apiKeys.rows = []) (run : Reaches (manage rt) Any start db) :
    NamesInUseOnce db.apiKeys := by
  refine run.invariant (I := fun db => NamesInUseOnce db.apiKeys) ?_ fun _ _ _ _ h once =>
    (keyChange_of_manage h).namesInUseOnce once
  intro a ha
  rw [Table.mem_def, empty] at ha
  cases ha

/-! Revocation. -/

/-- Some presented key is accepted as a key of this name. -/
def AcceptsKey (rt : Runtime) (db : Database) (name : String) : Prop :=
  ∃ presentedKey now principal db',
    resolvePrincipal rt now db presentedKey = .ok (principal, db') ∧ principal.keyName = name

theorem not_acceptsKey {rt : Runtime} {db : Database} {name : String}
    (revoked : ∀ k ∈ db.apiKeys, k.name = name → k.revokedAt ≠ none) :
    ¬ AcceptsKey rt db name := by
  rintro ⟨presentedKey, now, principal, db', resolved, named⟩
  obtain ⟨key, mem, _, live, _, same, _⟩ := resolvePrincipal_ok resolved
  exact revoked key mem (same.symm.trans named) live

/-- Where the name has one row, and that is in use, revocation ends its use. -/
theorem revokeApiKey_single {rt : Runtime} {db : Database} {key : ApiKey} (now : Time)
    (single : (db.apiKeys.rows.filter fun k => k.name = key.name) = [key])
    (live : key.revokedAt = none) :
    ∃ message db', revokeApiKey db key.name now = .ok (message, db') ∧
      ¬ AcceptsKey rt db' key.name := by
  have revoked : ∃ message, revokeApiKey db key.name now = .ok (message,
      { db with apiKeys := db.apiKeys.modify key.id (ApiKey.revoke now) }) := by
    simp only [revokeApiKey, single, scalarOneOrNone, live, bind, Except.bind, pure, Except.pure]
    exact ⟨_, rfl⟩
  obtain ⟨message, revoked⟩ := revoked
  refine ⟨message, _, revoked, not_acceptsKey fun k mem named => ?_⟩
  obtain ⟨k₀, old, rfl⟩ :=
    (Table.mem_modify db.apiKeys key.id (ApiKey.revoke now) fun _ => rfl).mp mem
  by_cases here : k₀.id = key.id
  · simp [here, ApiKey.revoke]
  · rw [if_neg here] at named
    have only := (Table.filter_eq_singleton.mp single).2 k₀ old (by simpa using named)
    exact absurd (congrArg ApiKey.id only) here

/-- After any history of the operations, the revocation of a name in use ends its
use exactly when the name was not in use before. -/
theorem revokeApiKey_works_iff {rt : Runtime} {start db : Database}
    (empty : start.apiKeys.rows = []) (run : Reaches (manage rt) Any start db) {name : String}
    (inUse : ∃ k ∈ db.apiKeys, k.name = name ∧ k.active = true ∧ k.revokedAt = none) (now : Time) :
    (∃ message db', revokeApiKey db name now = .ok (message, db') ∧ ¬ AcceptsKey rt db' name) ↔
      ∀ k ∈ db.apiKeys, k.name = name → k.revokedAt = none := by
  obtain ⟨key, mem, rfl, _, live⟩ := inUse
  constructor
  · rintro ⟨message, db', revoked, _⟩ k other named
    obtain ⟨only, rows, _⟩ := revokeApiKey_ok revoked
    have isOnly := (Table.filter_eq_singleton.mp rows).2
    rw [isOnly k other (by simpa using named), ← isOnly key mem (by simp)]
    exact live
  · intro unrevoked
    refine revokeApiKey_single now (Table.filter_eq_singleton.mpr ⟨⟨mem, by simp⟩, ?_⟩) live
    intro k other named
    have named : k.name = key.name := by simpa using named
    exact namesInUseOnce_of_run empty run k other key mem (unrevoked k other named) live named

/-! A key is rotated as the procedure has it: revoked, and created again under its name. -/
namespace Sample

def withoutKeys : Database :=
  { store mailbox with
    projects := Table.empty, apiKeys := Table.empty, apiKeyScopes := Table.empty }

def createKey (draw : KeyDraw) : KeyAction :=
  .createApiKey "web" "shop" ["noreply@shop.example"] draw

def rotation : List KeyAction := [.createProject "shop" none 1 none, createKey ⟨1, "first"⟩,
  .revokeApiKey "web" 0, createKey ⟨2, "second"⟩]

def created : Database := final (manage runtime) withoutKeys (rotation.take 2)

def rotated : Database := final (manage runtime) withoutKeys rotation

def inUse (db : Database) : Bool :=
  db.apiKeys.rows.any fun k => k.name = "web" ∧ k.active = true ∧ k.revokedAt = none

/-- Whether the name is in use, how its revocation ends, and what a presented key is
accepted as. -/
def standing (presentedKey : String) (db : Database) :
    Bool × Except Raised String × Except Raised String :=
  (inUse db, (revokeApiKey db "web" 0).map Prod.fst,
    (resolvePrincipal runtime 0 db presentedKey).map fun r => r.1.keyName)

theorem standing_eq {presentedKey : String} {db : Database}
    {revocation acceptance : Except Raised String}
    (h : standing presentedKey db = (true, revocation, acceptance)) :
    (∃ k ∈ db.apiKeys, k.name = "web" ∧ k.active = true ∧ k.revokedAt = none) ∧
      (revokeApiKey db "web" 0).map Prod.fst = revocation ∧
      (resolvePrincipal runtime 0 db presentedKey).map (fun r => r.1.keyName) = acceptance := by
  obtain ⟨used, rest⟩ := Prod.mk.inj h
  obtain ⟨k, mem, live⟩ := List.any_eq_true.mp used
  exact ⟨⟨k, mem, of_decide_eq_true live⟩, Prod.mk.inj rest⟩

theorem acceptsKey_of_map {presentedKey name : String} {db : Database}
    (h : (resolvePrincipal runtime 0 db presentedKey).map (fun r => r.1.keyName) = .ok name) :
    AcceptsKey runtime db name := by
  cases resolved : resolvePrincipal runtime 0 db presentedKey with
  | error e => rw [resolved] at h; cases h
  | ok r =>
      rw [resolved] at h
      exact ⟨presentedKey, 0, r.1, r.2, resolved, Except.ok.inj h⟩

end Sample

/-- The second key of the name cannot be revoked, and is accepted on. -/
theorem rotated_key_is_not_revocable :
    Reaches (manage Sample.runtime) Any Sample.withoutKeys Sample.rotated ∧
    (∃ k ∈ Sample.rotated.apiKeys, k.name = "web" ∧ k.active = true ∧ k.revokedAt = none) ∧
    (∀ message db', revokeApiKey Sample.rotated "web" 0 ≠ .ok (message, db')) ∧
    AcceptsKey Sample.runtime Sample.rotated "web" := by
  obtain ⟨run, seen⟩ : Reaches (manage Sample.runtime) Any _ Sample.rotated ∧
      Sample.standing "em_live_second" Sample.rotated =
        (true, .error .multipleResultsFound, .ok "web") :=
    reaches_final _ (by decide +kernel) fun _ _ _ => trivial
  obtain ⟨used, fails, accepted⟩ := Sample.standing_eq seen
  refine ⟨run, used, fun message db' completes => ?_, Sample.acceptsKey_of_map accepted⟩
  rw [completes] at fails
  cases fails

theorem created_key_is_revocable :
    AcceptsKey Sample.runtime Sample.created "web" ∧
    ((∃ message db', revokeApiKey Sample.created "web" 0 = .ok (message, db') ∧
        ¬ AcceptsKey Sample.runtime db' "web") ↔
      ∀ k ∈ Sample.created.apiKeys, k.name = "web" → k.revokedAt = none) ∧
    ∀ k ∈ Sample.created.apiKeys, k.name = "web" → k.revokedAt = none := by
  obtain ⟨run, seen⟩ : Reaches (manage Sample.runtime) Any _ Sample.created ∧
      (Sample.standing "em_live_first" Sample.created, Sample.created.apiKeys.rows.all fun k =>
        k.revokedAt = none) = ((true, .ok ("Revoked 'web'. Effective immediately -- " ++
          "authentication is never cached."), .ok "web"), true) :=
    reaches_final (fun db => (Sample.standing "em_live_first" db,
      db.apiKeys.rows.all fun k => k.revokedAt = none)) (by decide +kernel) fun _ _ _ => trivial
  obtain ⟨standing, unrevoked⟩ := Prod.mk.inj seen
  obtain ⟨used, _, accepted⟩ := Sample.standing_eq standing
  exact ⟨Sample.acceptsKey_of_map accepted, revokeApiKey_works_iff rfl run used 0,
    fun k mem _ => of_decide_eq_true (List.all_eq_true.mp unrevoked k mem)⟩

end Emaild
