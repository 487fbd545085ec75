import Emaild.Crypto
import Emaild.Logging.ApiKeys
import Emaild.Logging.Lines
import Emaild.RateLimit
import Emaild.Relational.Session
import Emaild.Secretstore

/-!
The settings of a process. Its role decides which secrets it may hold and which it must;
what it lacks it takes from a volume that it shares with others, and what it says about
itself at its start tells no secret.
-/
namespace Emaild
open Relational Text

/-- `Role` -/
inductive Role
  | api
  | worker
  | admin
  deriving DecidableEq

def Role.value : Role → String
  | api => "api"
  | worker => "worker"
  | admin => "admin"

/-- `Environment` -/
inductive Environment
  | development
  | production
  deriving DecidableEq

def Environment.value : Environment → String
  | development => "development"
  | production => "production"

/-- `Settings`, of the fields that a validator or the diagnostics read. -/
structure Settings where
  role : Role := .api
  env : Environment := .development
  databaseUrl : String
  mailboxEncryptionKey : Option String := none
  mxrouteServer : Option String := none
  mxrouteUsername : Option String := none
  mxrouteApiKey : Option String := none
  smtpPort : Int := 465
  hourlyLimit : Int := 400
  rateLimitSafetyMargin : SafetyMargin :=
    { Binary64.nineTenths with leavesHeadroom := nineTenths_leavesHeadroom }
  bodyRetentionHours : Int := 72
  secretsDir : Option String := none
  trustedProxyHosts : String := ""
  dashboardEnabled : Bool := true
  dashboardToken : Option String := none
  dashboardBehindProxyAuth : Bool := false

/-- Why a process does not start. -/
inductive StartFailure
  | valueError (message : String)
  | secretStore (failure : Secretstore.Failure)

namespace Settings

/-- A text is there, and is not empty. -/
def Given (value : Option String) : Prop := orEmpty value ≠ ""

instance (value : Option String) : Decidable (Given value) := inferInstanceAs (Decidable (_ ≠ _))

/-- `_key_looks_like_fernet` -/
def keyLooksLikeFernet (key : Option String) : Except StartFailure (Option String) :=
  if orEmpty key = "" then .ok none
  else if (orEmpty key).length ≠ 44 then .error (.valueError
    ("mailbox_encryption_key must be a 44-character urlsafe-base64 Fernet key; " ++
      "generate with: python -c \"from cryptography.fernet import Fernet; " ++
      "print(Fernet.generate_key().decode())\""))
  else .ok key

/-- The key is taken from the volume. -/
def AsksForKey (s : Settings) : Prop :=
  Given s.secretsDir ∧ s.role ≠ .api ∧ ¬ Given s.mailboxEncryptionKey

/-- The password of the dashboard is taken from the volume. -/
def AsksForToken (s : Settings) : Prop :=
  Given s.secretsDir ∧ s.role = .api ∧ s.dashboardEnabled = true ∧ ¬ Given s.dashboardToken

instance (s : Settings) : Decidable s.AsksForKey := inferInstanceAs (Decidable (_ ∧ _))
instance (s : Settings) : Decidable s.AsksForToken := inferInstanceAs (Decidable (_ ∧ _))

/-- `_bootstrap_secrets_from_volume`, with what `read_or_create` comes to. No role asks for
more than one secret. -/
def bootstrapSecretsFromVolume (s : Settings) (stored : Except Secretstore.Failure String) :
    Except StartFailure Settings :=
  if s.AsksForKey then
    match stored with
    | .error failure => .error (.secretStore failure)
    | .ok key =>
        if key.length ≠ 44 then .error (.valueError
          (s!"the stored mailbox encryption key in {orEmpty s.secretsDir} is " ++
            s!"{key.length} characters, not 44. It is corrupt or truncated; " ++
            "restore it from backup rather than letting a new one be made."))
        else .ok { s with mailboxEncryptionKey := some key }
  else if s.AsksForToken then
    match stored with
    | .error failure => .error (.secretStore failure)
    | .ok token => .ok { s with dashboardToken := some token }
  else .ok s

def HasMxroute (s : Settings) : Prop :=
  Given s.mxrouteServer ∨ Given s.mxrouteUsername ∨ Given s.mxrouteApiKey

instance (s : Settings) : Decidable s.HasMxroute := inferInstanceAs (Decidable (_ ∨ _))

/-- `_enforce_role_secret_scoping` -/
def enforceRoleSecretScoping (s : Settings) : Except StartFailure Settings :=
  if (s.role = .api ∨ s.role = .worker) ∧ s.HasMxroute then .error (.valueError
    (s!"role={s.role.value} must not be given MXROUTE_* credentials. " ++
      "The account-root key belongs only to role=admin, which is not " ++
      "publicly routed. See deployment_and_release.md §3."))
  else if s.role = .worker ∧ ¬ Given s.mailboxEncryptionKey then .error (.valueError
    ("role=worker requires EMAILD_MAILBOX_ENCRYPTION_KEY " ++
      "to decrypt mailbox SMTP passwords"))
  else if s.role = .api ∧ Given s.mailboxEncryptionKey then .error (.valueError
    ("role=api must not hold EMAILD_MAILBOX_ENCRYPTION_KEY. The API " ++
      "never sends mail directly; only the worker decrypts credentials."))
  else if s.env = .production ∧ contains "CHANGEME" s.databaseUrl then .error (.valueError
    "refusing to start in production with a placeholder database password")
  else if s.role = .api ∧ s.env = .production ∧ s.dashboardEnabled = true ∧
      ¬ Given s.dashboardToken ∧ s.dashboardBehindProxyAuth = false then .error (.valueError
    ("refusing to serve an unauthenticated dashboard in production. " ++
      "Either set EMAILD_DASHBOARD_TOKEN, or set " ++
      "EMAILD_DASHBOARD_BEHIND_PROXY_AUTH=true to confirm Cloudflare " ++
      "Access (or equivalent) is authenticating it. To turn the " ++
      "dashboard off entirely, set EMAILD_DASHBOARD_ENABLED=false."))
  else .ok s

/-- `Settings()`, of what the process is given. -/
def load (given : Settings) (stored : Except Secretstore.Failure String) :
    Except StartFailure Settings := do
  let key ← keyLooksLikeFernet given.mailboxEncryptionKey
  let s ← bootstrapSecretsFromVolume { given with mailboxEncryptionKey := key } stored
  enforceRoleSecretScoping s

/-- What a process that has started holds, and what it does not. -/
structure Scoped (s : Settings) : Prop where
  mxroute : s.role ≠ .admin → ¬ s.HasMxroute
  worker : s.role = .worker → ∃ key, s.mailboxEncryptionKey = some key ∧ key.length = 44
  api : s.role = .api → s.mailboxEncryptionKey = none
  database : s.env = .production → contains "CHANGEME" s.databaseUrl = false
  dashboard : s.role = .api → s.env = .production → s.dashboardEnabled = true →
    Given s.dashboardToken ∨ s.dashboardBehindProxyAuth = true

/-- What a process has to be given, and to find on its volume, to start. -/
structure Startable (given : Settings) (stored : Except Secretstore.Failure String) : Prop where
  key : Given given.mailboxEncryptionKey → (orEmpty given.mailboxEncryptionKey).length = 44
  storedKey : given.AsksForKey → ∃ key, stored = .ok key ∧ key.length = 44
  storedToken : given.AsksForToken → ∃ token, stored = .ok token
  mxroute : given.role ≠ .admin → ¬ given.HasMxroute
  worker : given.role = .worker → Given given.mailboxEncryptionKey ∨ Given given.secretsDir
  api : given.role = .api → ¬ Given given.mailboxEncryptionKey
  database : given.env = .production → contains "CHANGEME" given.databaseUrl = false
  dashboard : given.role = .api → given.env = .production → given.dashboardEnabled = true →
    Given given.dashboardToken ∨ given.dashboardBehindProxyAuth = true ∨
      Given given.secretsDir ∧ stored ≠ .ok ""

/-! What each validator lets through. -/

section Load
variable {given s t : Settings} {stored : Except Secretstore.Failure String}

theorem given_iff {value : Option String} : Given value ↔
    ∃ text, value = some text ∧ text ≠ "" := by
  cases value with
  | none => simp [Given, orEmpty]
  | some text => simp [Given, orEmpty]

theorem keyLooksLikeFernet_ok {key key' : Option String} : keyLooksLikeFernet key = .ok key' ↔
    (¬ Given key ∧ key' = none) ∨ (Given key ∧ (orEmpty key).length = 44 ∧ key' = key) := by
  unfold keyLooksLikeFernet Given
  by_cases empty : orEmpty key = ""
  · simp [empty, eq_comm]
  · by_cases length : (orEmpty key).length = 44
    · simp [empty, length, eq_comm]
    · simp [empty, length]

theorem enforceRoleSecretScoping_ok : enforceRoleSecretScoping s = .ok t ↔
    t = s ∧ (s.role ≠ .admin → ¬ s.HasMxroute) ∧ (s.role = .worker → Given s.mailboxEncryptionKey) ∧
      (s.role = .api → ¬ Given s.mailboxEncryptionKey) ∧
      (s.env = .production → contains "CHANGEME" s.databaseUrl = false) ∧
      (s.role = .api → s.env = .production → s.dashboardEnabled = true →
        Given s.dashboardToken ∨ s.dashboardBehindProxyAuth = true) := by
  unfold enforceRoleSecretScoping
  have others : (s.role = .api ∨ s.role = .worker) ↔ s.role ≠ .admin := by
    cases s.role <;> simp
  split
  · rename_i h
    exact ⟨(fun e => nomatch e), fun ⟨_, mxroute, _⟩ => absurd h.2 (mxroute (others.mp h.1))⟩
  rename_i mxroute
  split
  · rename_i h
    exact ⟨(fun e => nomatch e), fun ⟨_, _, worker, _⟩ => absurd (worker h.1) h.2⟩
  rename_i worker
  split
  · rename_i h
    exact ⟨(fun e => nomatch e), fun ⟨_, _, _, api, _⟩ => absurd h.2 (api h.1)⟩
  rename_i api
  split
  · rename_i h
    refine ⟨(fun e => nomatch e), fun ⟨_, _, _, _, database, _⟩ => ?_⟩
    rw [database h.1] at h
    cases h.2
  rename_i database
  split
  · rename_i h
    refine ⟨(fun e => nomatch e), fun ⟨_, _, _, _, _, dashboard⟩ => ?_⟩
    rcases dashboard h.1 h.2.1 h.2.2.1 with token | behind
    · exact absurd token h.2.2.2.1
    · rw [behind] at h
      cases h.2.2.2.2
  rename_i dashboard
  constructor
  · rintro ⟨⟩
    refine ⟨rfl, fun other has => mxroute ⟨others.mpr other, has⟩, fun role => ?_,
      fun role has => api ⟨role, has⟩,
      fun env => ?_, fun role env enabled => ?_⟩
    · by_contra lacks
      exact worker ⟨role, lacks⟩
    · exact Bool.eq_false_iff.mpr fun placeholder => database ⟨env, placeholder⟩
    · by_contra neither
      obtain ⟨lacks, exposed⟩ := not_or.mp neither
      exact dashboard ⟨role, env, enabled, lacks, Bool.eq_false_iff.mpr exposed⟩
  · rintro ⟨rfl, _⟩
    rfl

/-- A secret is filled in, and nothing else is. -/
theorem bootstrapSecretsFromVolume_ok : bootstrapSecretsFromVolume s stored = .ok t ↔
    (s.AsksForKey ∧ ∃ key, stored = .ok key ∧ key.length = 44 ∧
        t = { s with mailboxEncryptionKey := some key }) ∨
      (s.AsksForToken ∧ ∃ token, stored = .ok token ∧ t = { s with dashboardToken := some token }) ∨
      (¬ s.AsksForKey ∧ ¬ s.AsksForToken ∧ t = s) := by
  unfold bootstrapSecretsFromVolume
  have once : s.AsksForKey → ¬ s.AsksForToken := fun key token => key.2.1 token.2.1
  by_cases key : s.AsksForKey
  · rw [if_pos key]
    cases stored with
    | error failure => simp [key, once key]
    | ok text =>
        by_cases length : text.length = 44
        · simp [key, once key, length, eq_comm]
        · simp [key, once key, length]
  · rw [if_neg key]
    by_cases token : s.AsksForToken
    · rw [if_pos token]
      cases stored with
      | error failure => simp [key, token]
      | ok text => simp [key, token, eq_comm]
    · rw [if_neg token]
      simp [key, token, eq_comm]

theorem load_ok : load given stored = .ok t ↔
    ∃ key s, keyLooksLikeFernet given.mailboxEncryptionKey = .ok key ∧
      bootstrapSecretsFromVolume { given with mailboxEncryptionKey := key } stored = .ok s ∧
      enforceRoleSecretScoping s = .ok t := by
  unfold load
  constructor
  · intro h
    obtain ⟨key, looks, h⟩ := ok_of_bind_ok h
    obtain ⟨s, filled, h⟩ := ok_of_bind_ok h
    exact ⟨key, s, looks, filled, h⟩
  · rintro ⟨key, s, looks, filled, h⟩
    rw [looks]
    show (bootstrapSecretsFromVolume _ _ >>= _) = _
    rw [filled]
    exact h

theorem given_of_length {text : String} (length : text.length = 44) : Given (some text) := by
  rintro rfl
  cases length

/-- The rules of the roles, for what a process holds in the end. -/
structure Allowed (s : Settings) : Prop where
  mxroute : s.role ≠ .admin → ¬ s.HasMxroute
  worker : s.role = .worker → Given s.mailboxEncryptionKey
  api : s.role = .api → ¬ Given s.mailboxEncryptionKey
  database : s.env = .production → contains "CHANGEME" s.databaseUrl = false
  dashboard : s.role = .api → s.env = .production → s.dashboardEnabled = true →
    Given s.dashboardToken ∨ s.dashboardBehindProxyAuth = true

theorem allowed_of_enforce (h : enforceRoleSecretScoping s = .ok t) : t = s ∧ t.Allowed := by
  obtain ⟨rfl, mxroute, worker, api, database, dashboard⟩ := enforceRoleSecretScoping_ok.mp h
  exact ⟨rfl, mxroute, worker, api, database, dashboard⟩

theorem enforce_of_allowed (h : s.Allowed) : enforceRoleSecretScoping s = .ok s :=
  enforceRoleSecretScoping_ok.mpr ⟨rfl, h.mxroute, h.worker, h.api, h.database, h.dashboard⟩

/-- The key that a process is given, if it is given one. -/
def ownKey (given : Settings) : Option String :=
  if Given given.mailboxEncryptionKey then given.mailboxEncryptionKey else none

theorem given_ownKey : Given given.ownKey ↔ Given given.mailboxEncryptionKey := by
  unfold ownKey
  split
  · exact Iff.rfl
  · rename_i absent
    exact ⟨fun h => absurd rfl h, fun h => absurd h absent⟩

theorem ownKey_eq_none (lacks : ¬ Given given.ownKey) : given.ownKey = none :=
  if_neg (mt given_ownKey.mpr lacks)

theorem exists_ownKey (has : Given given.ownKey)
    (length : Given given.mailboxEncryptionKey → (orEmpty given.mailboxEncryptionKey).length = 44) :
    ∃ key, given.ownKey = some key ∧ key.length = 44 := by
  have has := given_ownKey.mp has
  obtain ⟨key, known, -⟩ := given_iff.mp has
  have fits := length has
  rw [ownKey, if_pos has]
  rw [known] at fits
  exact ⟨key, known, fits⟩

theorem keyLooksLikeFernet_ownKey {key : Option String} :
    keyLooksLikeFernet given.mailboxEncryptionKey = .ok key ↔ key = given.ownKey ∧
      (Given given.mailboxEncryptionKey → (orEmpty given.mailboxEncryptionKey).length = 44) := by
  rw [keyLooksLikeFernet_ok, ownKey]
  by_cases has : Given given.mailboxEncryptionKey
  · simp [has, and_comm]
  · simp [has]

theorem asksForKey_ownKey :
    AsksForKey { given with mailboxEncryptionKey := given.ownKey } ↔ given.AsksForKey := by
  simp only [AsksForKey, given_ownKey]

/-- What a process that starts has been given and has found, and what it holds then. -/
theorem load_ok_iff : load given stored = .ok t ↔
    (Given given.mailboxEncryptionKey → (orEmpty given.mailboxEncryptionKey).length = 44) ∧
    ((given.AsksForKey ∧ ∃ key, stored = .ok key ∧ key.length = 44 ∧
        t = { given with mailboxEncryptionKey := some key }) ∨
      (given.AsksForToken ∧ ∃ token, stored = .ok token ∧
        t = { given with mailboxEncryptionKey := given.ownKey, dashboardToken := some token }) ∨
      (¬ given.AsksForKey ∧ ¬ given.AsksForToken ∧
        t = { given with mailboxEncryptionKey := given.ownKey })) ∧ t.Allowed := by
  have token : AsksForToken { given with mailboxEncryptionKey := given.ownKey } ↔
      given.AsksForToken := Iff.rfl
  rw [load_ok]
  constructor
  · rintro ⟨key, s, looks, filled, enforced⟩
    obtain ⟨rfl, length⟩ := keyLooksLikeFernet_ownKey.mp looks
    obtain ⟨rfl, allowed⟩ := allowed_of_enforce enforced
    rw [bootstrapSecretsFromVolume_ok, asksForKey_ownKey, token] at filled
    exact ⟨length, filled, allowed⟩
  · rintro ⟨length, filled, allowed⟩
    refine ⟨given.ownKey, t, keyLooksLikeFernet_ownKey.mpr ⟨rfl, length⟩, ?_,
      enforce_of_allowed allowed⟩
    rw [bootstrapSecretsFromVolume_ok, asksForKey_ownKey, token]
    exact filled

/-- A process that starts holds what its role allows. -/
theorem scoped_of_load (h : load given stored = .ok t) : t.Scoped := by
  obtain ⟨length, filled, allowed⟩ := load_ok_iff.mp h
  refine ⟨allowed.mxroute, fun role => ?_, fun role => ?_, allowed.database, allowed.dashboard⟩
  · have has := allowed.worker role
    rcases filled with ⟨-, key, -, fits, rfl⟩ | ⟨-, token, -, rfl⟩ | ⟨-, -, rfl⟩
    · exact ⟨key, rfl, fits⟩
    · exact exists_ownKey has length
    · exact exists_ownKey has length
  · have lacks := allowed.api role
    rcases filled with ⟨asks, key, -, -, rfl⟩ | ⟨-, token, -, rfl⟩ | ⟨-, -, rfl⟩
    · exact absurd role asks.2.1
    · exact ownKey_eq_none lacks
    · exact ownKey_eq_none lacks

theorem startable_of_load (h : load given stored = .ok t) : given.Startable stored := by
  obtain ⟨length, filled, allowed⟩ := load_ok_iff.mp h
  rcases filled with ⟨asks, key, found, fits, rfl⟩ | ⟨asks, token, found, rfl⟩ |
    ⟨noKey, noToken, rfl⟩
  · exact {
      key := length
      storedKey := fun _ => ⟨key, found, fits⟩
      storedToken := fun asks' => absurd asks'.2.1 asks.2.1
      mxroute := allowed.mxroute
      worker := fun _ => .inr asks.1
      api := fun role => absurd role asks.2.1
      database := allowed.database
      dashboard := fun role => absurd role asks.2.1 }
  · exact {
      key := length
      storedKey := fun asks' => absurd asks.2.1 asks'.2.1
      storedToken := fun _ => ⟨token, found⟩
      mxroute := allowed.mxroute
      worker := fun role => nomatch role.symm.trans asks.2.1
      api := fun role => mt given_ownKey.mpr (allowed.api role)
      database := allowed.database
      dashboard := fun role env enabled => by
        refine (allowed.dashboard role env enabled).elim (fun has => ?_) fun behind =>
          .inr (.inl behind)
        rw [found]
        exact .inr (.inr ⟨asks.1, fun same => has (Except.ok.inj same)⟩) }
  · exact {
      key := length
      storedKey := fun asks => absurd asks noKey
      storedToken := fun asks => absurd asks noToken
      mxroute := allowed.mxroute
      worker := fun role => .inl (given_ownKey.mp (allowed.worker role))
      api := fun role => mt given_ownKey.mpr (allowed.api role)
      database := allowed.database
      dashboard := fun role env enabled =>
        (allowed.dashboard role env enabled).imp_right .inl }

theorem load_of_startable (h : given.Startable stored) : ∃ t, load given stored = .ok t := by
  by_cases asksKey : given.AsksForKey
  · obtain ⟨key, found, fits⟩ := h.storedKey asksKey
    refine ⟨_, load_ok_iff.mpr ⟨h.key, .inl ⟨asksKey, key, found, fits, rfl⟩, ?_⟩⟩
    exact {
      mxroute := h.mxroute
      worker := fun _ => given_of_length fits
      api := fun role => absurd role asksKey.2.1
      database := h.database
      dashboard := fun role => absurd role asksKey.2.1 }
  have worker (role : given.role = .worker) : Given given.ownKey := by
    rw [given_ownKey]
    by_contra lacks
    refine asksKey ⟨(h.worker role).resolve_left lacks, ?_, lacks⟩
    rw [role]
    decide
  have api (role : given.role = .api) : ¬ Given given.ownKey := mt given_ownKey.mp (h.api role)
  by_cases asksToken : given.AsksForToken
  · obtain ⟨token, found⟩ := h.storedToken asksToken
    refine ⟨_, load_ok_iff.mpr ⟨h.key, .inr (.inl ⟨asksToken, token, found, rfl⟩), ?_⟩⟩
    refine ⟨h.mxroute, worker, api, h.database, fun role env enabled => ?_⟩
    rcases h.dashboard role env enabled with has | behind | ⟨-, given⟩
    · exact absurd has asksToken.2.2.2
    · exact .inr behind
    · exact .inl fun empty => given (found.trans (congrArg Except.ok empty))
  · refine ⟨_, load_ok_iff.mpr ⟨h.key, .inr (.inr ⟨asksKey, asksToken, rfl⟩), ?_⟩⟩
    refine ⟨h.mxroute, worker, api, h.database, fun role env enabled => ?_⟩
    rcases h.dashboard role env enabled with has | behind | ⟨dir, -⟩
    · exact .inl has
    · exact .inr behind
    · by_contra neither
      exact asksToken ⟨dir, role, enabled, fun has => neither (.inl has)⟩

/-- A process starts exactly if it is given or finds what its role needs, and is given nothing
that its role must not hold; and then it holds no more than that. -/
theorem starts_within_role (given : Settings) (stored : Except Secretstore.Failure String) :
    ((∃ s, load given stored = .ok s) ↔ given.Startable stored) ∧
      ∀ s, load given stored = .ok s → s.Scoped :=
  ⟨⟨fun ⟨_, h⟩ => startable_of_load h, load_of_startable⟩, fun _ => scoped_of_load⟩

end Load
end Settings

/-! What a process says about itself. -/

/-- `_redact_dsn` -/
def redactDsn (dsn : String) : String :=
  if !contains "@" dsn || !contains "//" dsn then "***"
  else
    let (scheme, rest) := partitionOn "//".toList dsn.toList
    let (creds, location) := rpartition '@' (.ofList rest)
    if contains ":" creds then
      .ofList scheme ++ "//" ++ (partition ':' creds).1 ++ ":***@" ++ location
    else .ofList scheme ++ "//***@" ++ location

theorem contains_mark {sub s : String} {c : Char} (mark : sub.toList = [c]) :
    contains sub s = true ↔ c ∈ s.toList := by
  rw [contains_iff, mark, List.singleton_infix_iff]

/-- The password of a connection string is whatever stands between the first colon of the
credentials and the last at sign. -/
theorem redactDsn_eq {scheme user password location : String}
    (first : ¬ "//".toList <:+: scheme.toList ++ ['/']) (noColon : ':' ∉ user.toList)
    (noAt : '@' ∉ location.toList) :
    redactDsn (scheme ++ "//" ++ (user ++ ":" ++ password ++ "@" ++ location)) =
      scheme ++ "//" ++ user ++ ":***@" ++ location := by
  have named :
      contains "@" (scheme ++ "//" ++ (user ++ ":" ++ password ++ "@" ++ location)) = true :=
    (contains_mark (show "@".toList = ['@'] from rfl)).mpr (by simp)
  have slashed :
      contains "//" (scheme ++ "//" ++ (user ++ ":" ++ password ++ "@" ++ location)) = true :=
    contains_iff.mpr ⟨scheme.toList, (user ++ ":" ++ password ++ "@" ++ location).toList, by simp⟩
  have parts : partitionOn "//".toList
      (scheme ++ "//" ++ (user ++ ":" ++ password ++ "@" ++ location)).toList =
        (scheme.toList, (user ++ ":" ++ password ++ "@" ++ location).toList) := by
    rw [String.toList_append, String.toList_append]
    exact partitionOn_append (by decide) first
  have place : rpartition '@' (user ++ ":" ++ password ++ "@" ++ location) =
      (user ++ ":" ++ password, location) := rpartition_append noAt
  have credentials : partition ':' (user ++ ":" ++ password) = (user, password) :=
    partition_append noColon
  have colon : contains ":" (user ++ ":" ++ password) = true :=
    (contains_mark (show ":".toList = [':'] from rfl)).mpr (by simp)
  simp only [redactDsn, named, slashed, parts, String.ofList_toList, place, credentials, colon]
  rfl

namespace Settings

/-- `effective_hourly_limit` -/
def effectiveHourlyLimit (s : Settings) : Nat :=
  max 1 (Binary64.truncMul s.hourlyLimit.toNat s.rateLimitSafetyMargin.toPositive)

/-- `trusted_proxies` -/
def trustedProxies (s : Settings) : List String :=
  ((s.trustedProxyHosts.toList.splitOn ',').map fun h => strip (.ofList h)).filter (· ≠ "")

def setOrUnset (value : Option String) : String := if Given value then "set" else "unset"

/-- `redacted` -/
def redacted (s : Settings) : List (String × Document) := [
  ("role", .text s.role.value),
  ("env", .text s.env.value),
  ("database", .text (redactDsn s.databaseUrl)),
  ("smtp_port", .int s.smtpPort),
  ("hourly_limit", .int s.hourlyLimit),
  ("effective_hourly_limit", .int s.effectiveHourlyLimit),
  ("body_retention_hours", .int s.bodyRetentionHours),
  ("mailbox_encryption_key", .text (setOrUnset s.mailboxEncryptionKey)),
  ("mxroute_credentials", .text (setOrUnset s.mxrouteApiKey)),
  ("trusted_proxies", .int s.trustedProxies.length)]

/-- The two differ in nothing but the values of secrets, in the password of the database too. -/
structure SameButSecrets (s s' : Settings) : Prop where
  shown : s' = { s with
    databaseUrl := s'.databaseUrl, mailboxEncryptionKey := s'.mailboxEncryptionKey
    mxrouteServer := s'.mxrouteServer, mxrouteUsername := s'.mxrouteUsername
    mxrouteApiKey := s'.mxrouteApiKey, secretsDir := s'.secretsDir
    dashboardToken := s'.dashboardToken }
  key : Given s.mailboxEncryptionKey ↔ Given s'.mailboxEncryptionKey
  credentials : Given s.mxrouteApiKey ↔ Given s'.mxrouteApiKey
  database : ∃ scheme user password password' location : String,
    ¬ "//".toList <:+: scheme.toList ++ ['/'] ∧ ':' ∉ user.toList ∧ '@' ∉ location.toList ∧
    s.databaseUrl = scheme ++ "//" ++ (user ++ ":" ++ password ++ "@" ++ location) ∧
    s'.databaseUrl = scheme ++ "//" ++ (user ++ ":" ++ password' ++ "@" ++ location)

/-- What the API logs when it starts: `extra={"context": {**settings.redacted(), …}}`. -/
def startRecord (created : Int) (installation : String) (s : Settings) : LogRecord where
  created := created
  levelname := "INFO"
  name := "emaild.main"
  message := "emaild starting"
  context := Dict.ofList (s.redacted ++ [("installation", .text installation)])

theorem redacted_congr {s s' : Settings} (same : s.SameButSecrets s') :
    s.redacted = s'.redacted := by
  obtain ⟨shown, key, credentials, scheme, user, password, password', location,
    first, noColon, noAt,
    url, url'⟩ := same
  have database : redactDsn s.databaseUrl = redactDsn s'.databaseUrl := by
    rw [url, url', redactDsn_eq first noColon noAt, redactDsn_eq first noColon noAt]
  have keys : setOrUnset s.mailboxEncryptionKey = setOrUnset s'.mailboxEncryptionKey := by
    simp only [setOrUnset, key]
  have accounts : setOrUnset s.mxrouteApiKey = setOrUnset s'.mxrouteApiKey := by
    simp only [setOrUnset, credentials]
  rw [shown]
  simp only [redacted, effectiveHourlyLimit, trustedProxies, database, keys, accounts]

/-- The line that is logged at the start tells no secret, whatever characters it has. -/
theorem startLine_congr (w : WordChars) (created : Int) (installation : String) {s s' : Settings}
    (same : s.SameButSecrets s') :
    (s.startRecord created installation).format w =
      (s'.startRecord created installation).format w := by
  simp only [startRecord, redacted_congr same]

end Settings
namespace Sample

/-- The settings of an API with a database password. -/
def apiSettings (password : String) (token : Option String) : Settings where
  databaseUrl :=
    "postgresql+asyncpg:" ++ "//" ++ ("emaild" ++ ":" ++ password ++ "@" ++ "db/emaild")
  dashboardToken := token

end Sample

namespace Settings
open Sample

theorem start_line_without_password :
    ((apiSettings "p@ss//word" none).startRecord 0 "inst").format asciiWords =
      ((apiSettings "hunter2" (some "hunter2")).startRecord 0 "inst").format asciiWords :=
  startLine_congr asciiWords 0 "inst" {
    shown := rfl
    key := Iff.rfl
    credentials := Iff.rfl
    database := ⟨"postgresql+asyncpg:", "emaild", "p@ss//word", "hunter2", "db/emaild", by decide,
      by decide, by decide, rfl, rfl⟩ }

end Settings
end Emaild
