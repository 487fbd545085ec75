import Emaild.Dashboard.TestSend
import Emaild.Management
import Emaild.Mime.Fallback

/-!
The header in front of the lookup of a key: what it takes to be let in, and what a caller
learns that is not.
-/
namespace Emaild
open Relational Text

/-- `_extract_bearer` -/
def extractBearer (rt : Runtime) (header : Option String) : Except Raised String :=
  match header.filter (· ≠ "") with
  | none => .error (authenticationError
      "Missing Authorization header. Send: Authorization: Bearer em_live_...")
  | some header =>
      let scheme := (partition ' ' header).1
      let token := strip (partition ' ' header).2
      if rt.lower scheme ≠ "bearer" ∨ token = "" then .error (authenticationError
        "Malformed Authorization header. Expected: Authorization: Bearer em_live_...")
      else if startsWith apiKeyPrefix token then .ok token
      else .error (authenticationError
        s!"Invalid API key format. Keys begin with '{apiKeyPrefix}'.")

/-- `require_principal`, in a transaction of its own. -/
def requirePrincipal (rt : Runtime) (now : Time) (db : Database) (header : Option String) :
    Except Raised Principal × Database :=
  match extractBearer rt header with
  | .error e => (.error e, db)
  | .ok token =>
      match resolvePrincipal rt now db token with
      | .error e => (.error e, db)
      | .ok (principal, db) => (.ok principal, db)

/-- The project of every key is stored. -/
def Database.KeysOwned (db : Database) : Prop :=
  ∀ key ∈ db.apiKeys, ∃ project, db.projects.find? key.projectId = some project

section Resolve
variable {rt : Runtime} {now : Time} {db db' : Database} {token : String} {header : Option String}
  {principal : Principal} {e : Raised}

/-- Unknown, revoked, out of use: the caller is told the same. -/
theorem resolvePrincipal_refuses (owned : db.KeysOwned)
    (refused : resolvePrincipal rt now db token = .error e) :
    e = authenticationError "Invalid API key." := by
  unfold resolvePrincipal at refused
  split at refused
  · exact (Except.error.inj refused).symm
  rename_i key found
  split at refused
  · exact (Except.error.inj refused).symm
  split at refused
  · rename_i absent
    obtain ⟨project, owner⟩ := owned key (List.mem_of_find?_eq_some found)
    cases absent.symm.trans owner
  split at refused
  · exact (Except.error.inj refused).symm
  · cases refused

theorem requirePrincipal_eq_ok :
    requirePrincipal rt now db header = (.ok principal, db') ↔
      ∃ token, extractBearer rt header = .ok token ∧
        resolvePrincipal rt now db token = .ok (principal, db') := by
  unfold requirePrincipal
  cases extractBearer rt header with
  | error e => simp
  | ok token =>
      cases resolved : resolvePrincipal rt now db token with
      | error e => simp [resolved]
      | ok result => simp [resolved, Prod.ext_iff]

/-- Who is not let in has written nothing. -/
theorem requirePrincipal_eq_error :
    requirePrincipal rt now db header = (.error e, db') ↔ db' = db ∧
      (extractBearer rt header = .error e ∨
        ∃ token, extractBearer rt header = .ok token ∧
          resolvePrincipal rt now db token = .error e) := by
  unfold requirePrincipal
  cases extractBearer rt header with
  | error e => simp [and_comm, eq_comm]
  | ok token =>
      cases resolved : resolvePrincipal rt now db token with
      | error e => simp [resolved, and_comm, eq_comm]
      | ok result => simp [resolved]

theorem extractBearer_eq_ok : extractBearer rt header = .ok token ↔
    ∃ text, header = some text ∧ text ≠ "" ∧ rt.lower (partition ' ' text).1 = "bearer" ∧
      strip (partition ' ' text).2 = token ∧ token ≠ "" ∧
      startsWith apiKeyPrefix token = true := by
  unfold extractBearer
  cases header with
  | none => simp
  | some text =>
      by_cases empty : text = ""
      · simp [Option.filter_some, empty]
      · simp only [Option.filter_some, decide_not, empty, decide_false, Bool.not_false, if_true,
          Option.some.injEq, exists_eq_left']
        split
        · rename_i malformed
          simp only [reduceCtorEq, false_iff]
          rintro ⟨-, scheme, rfl, present, -⟩
          exact malformed.elim (fun other => other scheme) present
        · rename_i shaped
          push Not at shaped
          split
          · rename_i known
            rw [Except.ok.injEq]
            constructor
            · rintro rfl
              exact ⟨empty, shaped.1, rfl, shaped.2, known⟩
            · rintro ⟨-, -, same, -⟩
              exact same
          · rename_i unknown
            simp only [reduceCtorEq, false_iff]
            rintro ⟨-, -, rfl, -, known⟩
            exact unknown known

/-- Whatever a store holds and whatever time it is: of two stores that refuse a header, both
refuse it in the same words, and neither is written to. -/
theorem refusals_are_alike {now' : Time} {other db'' : Database} {e' : Raised}
    (owned : db.KeysOwned) (owned' : other.KeysOwned)
    (refused : requirePrincipal rt now db header = (.error e, db'))
    (refused' : requirePrincipal rt now' other header = (.error e', db'')) :
    e = e' ∧ db' = db ∧ db'' = other := by
  obtain ⟨rfl, cause⟩ := requirePrincipal_eq_error.mp refused
  obtain ⟨rfl, cause'⟩ := requirePrincipal_eq_error.mp refused'
  refine ⟨?_, rfl, rfl⟩
  rcases cause with early | ⟨token, read, late⟩
  · rcases cause' with early' | ⟨token', read', _⟩
    · exact Except.error.inj (early.symm.trans early')
    · cases early.symm.trans read'
  · rcases cause' with early' | ⟨token', read', late'⟩
    · cases read.symm.trans early'
    · rw [resolvePrincipal_refuses owned late, resolvePrincipal_refuses owned' late']

end Resolve

/-! A key that was just created. -/

theorem usableProject_ok {db : Database} {projectName : String} {project : Project}
    (h : usableProject db projectName = .ok project) :
    project ∈ db.projects ∧ project.name = projectName ∧ project.active = true := by
  obtain ⟨found, rows, rest⟩ := ok_of_bind_ok h
  cases found with
  | none => cases rest
  | some candidate =>
      have only := (Table.filter_eq_singleton.mp (scalarOneOrNone_some.mp rows)).1
      by_cases active : candidate.active = true
      · simp only [active, if_true] at rest
        cases rest
        exact ⟨only.1, by simpa using only.2, active⟩
      · simp [active] at rest

theorem plain_of_all {s : String} (all : (s.toList.all fun c => !isSpace c) = true) :
    ∀ c ∈ s.toList, isSpace c = false := by
  simpa using all

theorem startsWith_append (pre rest : String) : startsWith pre (pre ++ rest) = true := by
  rw [startsWith, String.toList_append, List.isPrefixOf_iff_prefix]
  exact List.prefix_append _ _

/-- A new key opens the project that it was created for: presented after the scheme it is let
in, with the identities that its scopes have at that time. -/
theorem created_key_is_let_in {rt : Runtime} {db db' : Database} {name projectName : String}
    {addresses : List String} {draw : KeyDraw} {row : ApiKey} {plaintext scheme : String}
    {senders : List String}
    (created : createApiKey rt db name projectName addresses draw =
      .ok ((row, plaintext, senders), db'))
    (plain : ∀ c ∈ draw.token.toList, isSpace c = false)
    (bearer : rt.lower scheme = "bearer") (oneWord : ' ' ∉ scheme.toList) (now : Time) :
    ∃ project ∈ db.projects, project.name = projectName ∧
      requirePrincipal rt now db' (some (scheme ++ " " ++ plaintext)) =
        (.ok ⟨row.id, row.name, project.id, projectName, scopedMailboxes db' row⟩,
          touchLastUsed now db' row) := by
  obtain ⟨project, usable, projects, owner, active, unrevoked, rfl, digest, fresh, -, free, keys⟩ :=
    createApiKey_ok created
  obtain ⟨mem, rfl, running⟩ := usableProject_ok usable
  refine ⟨project, mem, rfl, requirePrincipal_eq_ok.mpr
    ⟨apiKeyPrefix ++ draw.token, extractBearer_eq_ok.mpr ?_, resolvePrincipal_eq_ok.mpr
      ⟨row, project, ?_, ⟨active, unrevoked, ?_, running⟩, rfl, rfl⟩⟩⟩
  · have parts : partition ' ' (scheme ++ " " ++ (apiKeyPrefix ++ draw.token)) =
        (scheme, apiKeyPrefix ++ draw.token) := partition_append oneWord
    have word : ∀ c ∈ apiKeyPrefix.toList, isSpace c = false :=
      plain_of_all (by decide)
    refine ⟨_, rfl, ?_, ?_, ?_, ?_, startsWith_append _ _⟩
    · simp [apiKeyPrefix]
    · exact (congrArg (rt.lower ∘ Prod.fst) parts).trans bearer
    · refine (congrArg (strip ∘ Prod.snd) parts).trans (strip_of_tight fun c there => ?_)
      rw [String.toList_append] at there
      exact (List.mem_append.mp there).elim (word c) (plain c)
    · simp [apiKeyPrefix]
  · -- no other row has the digest
    cases found : db'.apiKeys.rows.find? fun k => k.keyHash = rt.sha256 _ with
    | none =>
        have own : row ∈ db'.apiKeys :=
          keys ▸ (Table.mem_insert_iff _ _ free row).mpr (.inr rfl)
        exact absurd (decide_eq_true digest) (List.find?_eq_none.mp found row own)
    | some k =>
        have hashed : k.keyHash = rt.sha256 (apiKeyPrefix ++ draw.token) := by
          simpa using List.find?_some found
        have stored : k ∈ db'.apiKeys := List.mem_of_find?_eq_some found
        rw [keys] at stored
        rcases (Table.mem_insert_iff _ _ free k).mp stored with old | new
        · exact absurd (hashed.trans digest.symm) (fresh k old)
        · rw [new]
  · rw [projects, owner]
    exact Table.find?_of_mem mem

/-! The key of the shop, revoked in one store and never created in another. -/
namespace Sample

def shopWithoutKeys : Database :=
  { store mailbox with apiKeys := Table.empty, apiKeyScopes := Table.empty }

def shopWithKeyRevoked : Database :=
  { store mailbox with apiKeys := Table.empty.insert { apiKey with revokedAt := some 0 } rfl }

theorem shopWithoutKeys_owned : shopWithoutKeys.KeysOwned := fun _ mem =>
  absurd mem List.not_mem_nil

theorem shopWithKeyRevoked_owned : shopWithKeyRevoked.KeysOwned := fun _ mem =>
  ⟨project, by rw [List.mem_singleton.mp mem]; rfl⟩

end Sample

theorem revoked_key_is_as_good_as_none :
    ∃ e, (requirePrincipal Sample.runtime 0 Sample.shopWithKeyRevoked
        (some "bearer em_live_1")).1 = .error e ∧
      (requirePrincipal Sample.runtime 0 Sample.shopWithoutKeys
        (some "bearer em_live_1")).1 = .error e := by
  have revoked : (requirePrincipal Sample.runtime 0 Sample.shopWithKeyRevoked
      (some "bearer em_live_1")).1.toOption.isNone = true := by decide +kernel
  have unknown : (requirePrincipal Sample.runtime 0 Sample.shopWithoutKeys
      (some "bearer em_live_1")).1.toOption.isNone = true := by decide +kernel
  cases first : requirePrincipal Sample.runtime 0 Sample.shopWithKeyRevoked
    (some "bearer em_live_1") with
  | mk outcome db =>
      cases second : requirePrincipal Sample.runtime 0 Sample.shopWithoutKeys
        (some "bearer em_live_1") with
      | mk outcome' db' =>
          rw [first] at revoked
          rw [second] at unknown
          cases outcome with
          | ok principal => cases revoked
          | error e =>
              cases outcome' with
              | ok principal => cases unknown
              | error e' =>
                  obtain ⟨rfl, -, -⟩ := refusals_are_alike Sample.shopWithKeyRevoked_owned
                    Sample.shopWithoutKeys_owned first second
                  exact ⟨e, rfl, rfl⟩

theorem first_key_is_let_in :
    ∃ row senders db', createApiKey Sample.runtime Sample.shopWithoutKeys "web" "shop"
        ["noreply@shop.example"] ⟨1, "first"⟩ = .ok ((row, "em_live_first", senders), db') ∧
      ∃ project ∈ Sample.shopWithoutKeys.projects, project.name = "shop" ∧
        requirePrincipal Sample.runtime 0 db' (some ("bearer" ++ " " ++ "em_live_first")) =
          (.ok ⟨row.id, row.name, project.id, "shop", scopedMailboxes db' row⟩,
            touchLastUsed 0 db' row) := by
  have made : (createApiKey Sample.runtime Sample.shopWithoutKeys "web" "shop"
      ["noreply@shop.example"] ⟨1, "first"⟩).toOption.map (fun r => r.1.2.1) =
        some "em_live_first" := by decide +kernel
  cases created : createApiKey Sample.runtime Sample.shopWithoutKeys "web" "shop"
      ["noreply@shop.example"] ⟨1, "first"⟩ with
  | error e =>
      rw [created] at made
      cases made
  | ok result =>
      obtain ⟨⟨row, plaintext, senders⟩, db'⟩ := result
      rw [created] at made
      obtain rfl : plaintext = "em_live_first" := Option.some.inj made
      exact ⟨row, senders, db', rfl,
        created_key_is_let_in created (plain_of_all (by decide)) rfl (by decide) 0⟩

end Emaild
