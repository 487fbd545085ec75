import Emaild.Dashboard.FormBody
import Emaild.Dashboard.Routes
import Emaild.Fleet.Standing

/-!
The plaintext of a key reaches one page at most: the one that the redirect of its own
submission leads to, within two minutes.
-/
namespace Emaild
open Relational Text

section Scope
variable {σ α : Type} {handler : Raised → Option String}

theorem exec_ofUpdate (f : σ → Except Raised (α × σ)) (s : Session σ) :
    (Tx.ofUpdate f).exec s = match f s.working with
      | .ok (a, working) => (.ok a, { s with working := working })
      | .error e => (.error e, s) := rfl

theorem caughtScope_ofUpdate_ok {f : σ → Except Raised (α × σ)} {s s' : σ} {a : α}
    (h : caughtScope handler (Tx.ofUpdate f) s = (.ok (.ok a), s')) : f s = .ok (a, s') := by
  unfold caughtScope sessionScope at h
  rw [Tx.exec_bind_ok (Tx.exec_attempt _ _), exec_ofUpdate] at h
  dsimp only [Session.begin] at h
  rcases result : f s with e | ⟨b, working⟩
  · rw [result] at h
    cases handled : handler e with
    | none => simp [handled] at h
    | some text => simp [handled] at h
  · rw [result] at h
    simp only [Tx.exec_pure, Prod.mk.injEq, Except.ok.injEq] at h
    rw [h.1, h.2]

/-- A handler that returns lets the transaction end as the program left it. -/
theorem caughtScope_leaves {P : σ → Prop} {x : Tx σ Raised α} {s : σ}
    (leaves : x.Leaves P (.begin s)) : P (caughtScope handler x s).2 := by
  have tried : (Tx.attempt x).Leaves P (.begin s) := leaves
  refine (tried.bind fun result => ?_).sessionScope
  split
  · exact .pure _
  · split
    · exact .pure _
    · exact .throw _

theorem ofUpdate_leaves {P : σ → Prop} {f : σ → Except Raised (α × σ)} {s : σ} (before : P s)
    (after : ∀ a s', f s = .ok (a, s') → P s') : (Tx.ofUpdate f).Leaves P (.begin s) := by
  unfold Tx.Leaves
  rw [exec_ofUpdate]
  dsimp only [Session.begin]
  rcases result : f s with e | ⟨a, s'⟩
  · exact ⟨before, before⟩
  · exact ⟨before, after a s' result⟩

end Scope

/-! The digest of a key that has been created stays in the table. -/

def Database.HasDigest (digest : String) (db : Database) : Prop :=
  ∃ k ∈ db.apiKeys, k.keyHash = digest

theorem Database.HasDigest.of_apiKeys {digest : String} {db db' : Database}
    (has : db.HasDigest digest) (same : db'.apiKeys = db.apiKeys) : db'.HasDigest digest := by
  rwa [HasDigest, same]

/-- The key that is handed out is the one whose digest is kept, and no row had it before. -/
theorem createApiKey_issues {rt : Runtime} {db db' : Database} {name projectName : String}
    {addresses : List String} {draw : KeyDraw} {row : ApiKey} {plaintext : String}
    {senders : List String}
    (h : createApiKey rt db name projectName addresses draw =
      .ok ((row, plaintext, senders), db')) :
    plaintext = apiKeyPrefix ++ draw.token ∧ row.keyHash = rt.sha256 plaintext ∧
      row.revokedAt = none ∧ ¬ db.HasDigest (rt.sha256 plaintext) ∧
      ∃ free, db'.apiKeys = db.apiKeys.insert row free := by
  obtain ⟨_, -, -, -, -, unrevoked, rfl, digest, fresh, -, free, keys⟩ := createApiKey_ok h
  refine ⟨rfl, digest, unrevoked, ?_, free, keys⟩
  rintro ⟨k, mem, same⟩
  exact fresh k mem (same.trans digest.symm)

theorem sendTestMessage_leaves (rt : Runtime) (hash : List (String × PayloadValue) → String)
    (ttlHours : Nat) (post : TestPost) (db : Database) :
    (sendTestMessage rt hash ttlHours post).Leaves
      (fun t => t.apiKeys = db.apiKeys) (.begin db) := by
  unfold Tx.Leaves
  rw [exec_sendTestMessage]
  split
  · exact ⟨rfl, rfl⟩
  split
  · exact ⟨rfl, rfl⟩
  split
  · exact ⟨rfl, rfl⟩
  split
  · exact ⟨rfl, rfl⟩
  rename_i principal _ _ request _
  suffices left : (ingestTest rt hash ttlHours principal request post.draw post.now).Leaves
      (fun t => t.apiKeys = db.apiKeys) (.begin db) by
    unfold Tx.Leaves at left
    unfold reworded
    split <;> rename_i ended <;> rwa [ended] at left
  unfold Tx.Leaves
  rw [exec_ingestTest]
  split
  · exact ⟨rfl, rfl⟩
  split
  · exact ⟨rfl, rfl⟩
  dsimp only
  split
  · exact ⟨rfl, rfl⟩
  rename_i stored
  obtain ⟨_, -, grows⟩ := storeMessage_ok stored
  split <;> exact ⟨rfl, grows.apiKeys⟩

section Work
variable {rt : Runtime} {hash : List (String × PayloadValue) → String} {ttlHours : Nat}
  {form : Dict String (List String)} {t : Exchange} {db db' : Database}

theorem landing_snd {α : Type} (route : Mutation) (told : α → String × Flash)
    (result : Except Raised (Except String α) × Database) :
    (landing route told result).2 = result.2 := by
  obtain ⟨e | text | a, db⟩ := result <;> rfl

theorem perform_keeps_digest (route : Mutation) {digest : String} (has : db.HasDigest digest) :
    (perform rt hash ttlHours form t db route).2.HasDigest digest := by
  cases route <;> simp only [perform, landing_snd]
  case domainsAdd | domainsVerify => exact has
  case keysCreate =>
    refine caughtScope_leaves (ofUpdate_leaves has fun ⟨row, plaintext, senders⟩ db' created => ?_)
    obtain ⟨-, -, -, -, free, inserted⟩ := createApiKey_issues created
    obtain ⟨k, mem, same⟩ := has
    rw [Database.HasDigest, inserted]
    exact ⟨k, (Table.mem_insert_iff _ _ free k).mpr (.inl mem), same⟩
  case keysRevoke =>
    refine caughtScope_leaves (ofUpdate_leaves has fun message db' revoked => ?_)
    obtain ⟨key, -, rfl | written⟩ := revokeApiKey_ok revoked
    · exact has
    · obtain ⟨k, mem, same⟩ := has
      rw [Database.HasDigest, written]
      refine ⟨_, (Table.mem_modify _ _ _ (ApiKey.revoke_id t.now)).mpr ⟨k, mem, rfl⟩, ?_⟩
      split <;> exact same
  case projectsCreate =>
    have left : db.OtherProjects (caughtScope managementText (createProject (one form "name")
        (some (one form "description")) t.id t.rival) db).2 :=
      caughtScope_leaves (createProject_leaves db _ _ _ _)
    obtain ⟨projects, only⟩ := left
    rw [only]
    exact has
  case testSend =>
    exact has.of_apiKeys (caughtScope_leaves (sendTestMessage_leaves rt hash ttlHours _ db))
  case suppressionsAdd =>
    have standing := addSuppression_standing rt t.race t.now (one form "address") .manual
      (some (if one form "reason" = "" then "added from the dashboard" else one form "reason")) none
    exact has.of_apiKeys
      (caughtScope_leaves (standing db (.begin db) (.refl db) (.refl db))).apiKeys
  case suppressionsRemove =>
    refine caughtScope_leaves (ofUpdate_leaves has fun removed db' only => ?_)
    obtain ⟨suppressions, rfl⟩ := removeSuppression_only only
    exact has

/-- A redirect is left by what was told of a success, or is of an error. -/
theorem landing_eq_back {α : Type} {route : Mutation} {told : α → String × Flash}
    {result : Except Raised (Except String α) × Database} {path : String} {flash : Flash}
    (h : landing route told result = (.back path flash, db')) :
    (∃ a, result = (.ok (.ok a), db') ∧ told a = (path, flash)) ∨
      ∃ text, flash = { error := some text } := by
  obtain ⟨e | text | a, db⟩ := result
  · cases h
  · cases h
    exact .inr ⟨text, rfl⟩
  · obtain ⟨back, rfl⟩ := Prod.mk.inj h
    obtain ⟨rfl, rfl⟩ := Landing.back.inj back
    exact .inl ⟨a, rfl, rfl⟩

theorem landing_ne_page {α : Type} {route : Mutation} {told : α → String × Flash}
    {result : Except Raised (Except String α) × Database} {page : Page} {f : Option String} :
    (landing route told result).1 ≠ .page page f := by
  obtain ⟨e | text | a, db⟩ := result <;> exact fun h => nomatch h

theorem landing_plain {α : Type} {route : Mutation} {told : α → String × Flash}
    {result : Except Raised (Except String α) × Database} {reply : RouteResponse}
    (h : (landing route told result).1 = .reply reply) : reply.Plain := by
  obtain ⟨e | text | a, db⟩ := result <;> cases h
  trivial

theorem perform_plain {route : Mutation} {reply : RouteResponse}
    (h : (perform rt hash ttlHours form t db route).1 = .reply reply) : reply.Plain := by
  cases route <;> simp only [perform] at h <;> exact landing_plain h

theorem perform_ne_page {route : Mutation} {page : Page} {f : Option String} :
    (perform rt hash ttlHours form t db route).1 ≠ .page page f := by
  cases route <;> simp only [perform] <;> exact landing_ne_page

/-- Only the creation of a key has a secret to tell. -/
theorem perform_secret {route : Mutation} {path : String} {flash : Flash} {plaintext : String}
    (h : perform rt hash ttlHours form t db route = (.back path flash, db'))
    (secret : flash.secret = some plaintext) :
    route = .keysCreate ∧ ∃ row senders, createApiKey rt db (one form "name") (one form "project")
      (many form "mailbox") ⟨t.id, t.token⟩ = .ok ((row, plaintext, senders), db') := by
  have silent {told : String × Flash} (same : told = (path, flash))
      (untold : told.2.secret = none) : False := by
    rw [same] at untold
    exact nomatch untold.symm.trans secret
  cases route <;> simp only [perform] at h
  case keysCreate =>
    rcases landing_eq_back h with ⟨⟨row, key, senders⟩, result, told⟩ | ⟨text, rfl⟩
    · obtain ⟨-, rfl⟩ := Prod.mk.inj told
      obtain rfl := Option.some.inj secret
      have created := caughtScope_ofUpdate_ok result
      exact ⟨rfl, row, senders, created⟩
    · cases secret
  case suppressionsRemove =>
    rcases landing_eq_back h with ⟨removed, -, told⟩ | ⟨text, rfl⟩
    · cases removed <;> exact (silent told rfl).elim
    · cases secret
  all_goals
    rcases landing_eq_back h with ⟨a, -, told⟩ | ⟨text, rfl⟩
    · exact (silent told rfl).elim
    · cases secret

end Work

namespace DashboardSettings
variable (s : DashboardSettings) (rt : Runtime) (hash : List (String × PayloadValue) → String)

/-- What a run does to the one-shot values. -/
def calls : List Exchange → Panel → List (StoreCall Flash)
  | [], _ => []
  | t :: ts, p => ((s.serve rt hash t p.db).1.call? t).toList ++ calls ts (s.handle rt hash p t).2

/-- The request is answered with a page, which tells the flash. -/
def Shows (p : Panel) (t : Exchange) (flash : Flash) : Prop :=
  ∃ page token, (s.handle rt hash p t).1 = .page page token (some flash)

/-- The request is a submission of the dashboard that creates the key. -/
def Issues (p : Panel) (t : Exchange) (plaintext : String) : Prop :=
  s.Admits t ∧ ∃ headers body row senders, t.request = .post .keysCreate headers body ∧
    createApiKey rt p.db (one (parseForm body) "name") (one (parseForm body) "project")
      (many (parseForm body) "mailbox") ⟨t.id, t.token⟩ =
        .ok ((row, plaintext, senders), (s.handle rt hash p t).2.db)

variable {s rt hash} {p : Panel} {t : Exchange} {ts us : List Exchange}

theorem handle_store : (s.handle rt hash p t).2.store =
    ((s.serve rt hash t p.db).1.call? t).toList.foldl StoreCall.apply p.store := by
  unfold handle
  rcases s.serve rt hash t p.db with ⟨_ | _ | _, db⟩ <;> rfl

theorem after_append : s.after rt hash (ts ++ us) p = s.after rt hash us (s.after rt hash ts p) :=
  List.foldl_append

theorem calls_append : s.calls rt hash (ts ++ us) p =
    s.calls rt hash ts p ++ s.calls rt hash us (s.after rt hash ts p) := by
  induction ts generalizing p with
  | nil => rfl
  | cons t ts ih =>
      rw [List.cons_append, calls, ih, calls, List.append_assoc]
      rfl

theorem after_store : (s.after rt hash ts p).store =
    (s.calls rt hash ts p).foldl StoreCall.apply p.store := by
  induction ts generalizing p with
  | nil => rfl
  | cons t ts ih => rw [after, List.foldl_cons, ← after, ih, calls, List.foldl_append, handle_store]

theorem mem_calls {call : StoreCall Flash} : call ∈ s.calls rt hash ts p ↔
    ∃ before t after, ts = before ++ t :: after ∧
      (s.serve rt hash t (s.after rt hash before p).db).1.call? t = some call := by
  constructor
  · intro mem
    induction ts generalizing p with
    | nil => cases mem
    | cons t ts ih =>
        rcases List.mem_append.mp mem with here | later
        · exact ⟨[], t, ts, rfl, Option.mem_toList.mp here⟩
        · obtain ⟨before, u, after, rfl, called⟩ := ih later
          exact ⟨t :: before, u, after, rfl, called⟩
  · rintro ⟨before, t, after, rfl, called⟩
    rw [calls_append, calls, called]
    exact List.mem_append_right _ (List.mem_append_left _ (Option.mem_toList.mpr rfl))

theorem serve_plain {db : Database} {reply : RouteResponse}
    (h : (s.serve rt hash t db).1 = .reply reply) : reply.Plain := by
  rcases serve_cases s rt hash t db with ⟨own, plain, served⟩ | ⟨_, _, _, _, _, served⟩ |
    ⟨_, _, served⟩ | ⟨route, _, _, _, _, served⟩
  · rw [served] at h
    cases h
    exact plain
  · rw [served] at h
    cases h
  · rw [served] at h
    cases h
  · rw [served] at h
    exact perform_plain h

/-- A page is what a request with the password gets, and it tells what the store returns. -/
theorem shows_iff {flash : Flash} : s.Shows rt hash p t flash ↔
    ∃ page f, (s.serve rt hash t p.db).1 = .page page f ∧
      (p.store.take t.monotonic f).1 = some flash := by
  unfold Shows handle
  rcases served : s.serve rt hash t p.db with ⟨reply | ⟨path, flash'⟩ | ⟨page, f⟩, db⟩
  · have plain := serve_plain (congrArg Prod.fst served)
    refine ⟨?_, fun ⟨_, _, h, _⟩ => nomatch h⟩
    rintro ⟨page, token, shown⟩
    rw [show reply = _ from shown] at plain
    exact plain.elim
  · exact ⟨(fun ⟨_, _, h⟩ => nomatch h), (fun ⟨_, _, h, _⟩ => nomatch h)⟩
  · constructor
    · rintro ⟨_, _, shown⟩
      exact ⟨page, f, rfl, (RouteResponse.page.inj shown).2.2⟩
    · rintro ⟨_, _, same, found⟩
      obtain ⟨rfl, rfl⟩ := Landing.page.inj same
      exact ⟨page, s.issueToken, congrArg (RouteResponse.page page s.issueToken) found⟩

/-- A page is asked for with the password, and the handle stands in its address. -/
theorem serve_eq_page {db : Database} {page : Page} {f : Option String}
    (h : (s.serve rt hash t db).1 = .page page f) :
    ∃ headers, t.request = .get page headers f ∧ s.Opens headers := by
  rcases serve_cases s rt hash t db
    with ⟨_, _, served⟩ | ⟨page, headers, f, request, opens, served⟩ |
    ⟨_, _, served⟩ | ⟨_, _, _, _, _, served⟩
  · rw [served] at h
    cases h
  · rw [served] at h
    cases h
    exact ⟨headers, request, opens⟩
  · rw [served] at h
    cases h
  · rw [served] at h
    exact (perform_ne_page h).elim

/-- A secret is left behind by the creation of its key. -/
theorem issues_of_serve {path : String} {flash : Flash} {plaintext : String}
    (h : (s.serve rt hash t p.db).1 = .back path flash) (secret : flash.secret = some plaintext) :
    s.Issues rt hash p t plaintext := by
  rcases serve_cases s rt hash t p.db with ⟨_, _, served⟩ | ⟨_, _, _, _, _, served⟩ |
    ⟨_, _, served⟩ | ⟨route, headers, body, request, admitted, served⟩
  · rw [served] at h
    cases h
  · rw [served] at h
    cases h
  · rw [served] at h
    cases h
    cases secret
  · rw [served] at h
    obtain ⟨rfl, row, senders, created⟩ := perform_secret (Prod.ext h rfl) secret
    rw [← served] at created
    exact ⟨admitted, headers, body, row, senders, request, created⟩

theorem after_keeps_digest {digest : String} (has : p.db.HasDigest digest) :
    (s.after rt hash ts p).db.HasDigest digest := by
  induction ts generalizing p with
  | nil => exact has
  | cons t ts ih =>
      refine ih (p := (s.handle rt hash p t).2) ?_
      rw [handle_db]
      rcases serve_cases s rt hash t p.db with ⟨_, _, served⟩ | ⟨_, _, _, _, _, served⟩ |
        ⟨_, _, served⟩ | ⟨route, _, _, _, _, served⟩
      · rwa [served]
      · rwa [served]
      · rwa [served]
      · rw [served]
        exact perform_keeps_digest route has

/-- A key that has been created once is not created again. -/
theorem not_issues_again {plaintext : String} {u : Exchange}
    (issues : s.Issues rt hash p t plaintext) :
    ¬ s.Issues rt hash (s.after rt hash (t :: ts) p) u plaintext := by
  rintro ⟨-, _, _, _, _, -, again⟩
  obtain ⟨-, _, _, row, _, -, created⟩ := issues
  obtain ⟨-, digest, -, -, free, inserted⟩ := createApiKey_issues created
  obtain ⟨-, -, -, unused, -⟩ := createApiKey_issues again
  refine unused (after_keeps_digest (p := (s.handle rt hash p t).2) ⟨row, ?_, digest⟩)
  rw [inserted]
  exact (Table.mem_insert_iff _ _ free row).mpr (.inr rfl)

/-- Two places in one list are the same, or one of them is before the other. -/
theorem cut_cases {α : Type} {before before' after after' : List α} {x x' : α}
    (same : before ++ x :: after = before' ++ x' :: after') :
    before = before' ∧ x = x' ∨ (∃ between, before' = before ++ x :: between) ∨
      ∃ between, before = before' ++ x' :: between := by
  rcases List.append_eq_append_iff.mp same with ⟨between, rfl, tail⟩ | ⟨between, rfl, tail⟩
  · cases between with
    | nil => exact .inl ⟨(List.append_nil _).symm, (List.cons.inj tail).1⟩
    | cons y between =>
        obtain ⟨rfl, -⟩ := List.cons.inj tail
        exact .inr (.inl ⟨between, rfl⟩)
  · cases between with
    | nil => exact .inl ⟨List.append_nil _, (List.cons.inj tail).1.symm⟩
    | cons y between =>
        obtain ⟨rfl, -⟩ := List.cons.inj tail
        exact .inr (.inr ⟨between, rfl⟩)

section Process
variable {db : Database} {before after : List Exchange} {flash : Flash} {plaintext : String}

/-- What a page tells has been held for it since the submission it comes from. -/
theorem held_of_shows
    (orderly : Orderly (s.calls rt hash (before ++ t :: after) ⟨db, Table.empty⟩))
    (shown : s.Shows rt hash (s.after rt hash before ⟨db, Table.empty⟩) t flash) :
    ∃ early u late path page headers, before = early ++ u :: late ∧
      (s.serve rt hash u (s.after rt hash early ⟨db, Table.empty⟩).db).1 = .back path flash ∧
      t.request = .get page headers (some u.handle.text) ∧ s.Opens headers ∧
      t.monotonic ≤ u.monotonic + ttl ∧
      Held (s.calls rt hash before ⟨db, Table.empty⟩) u.monotonic u.handle flash ∧
      s.calls rt hash (before ++ [t]) ⟨db, Table.empty⟩ =
        s.calls rt hash before ⟨db, Table.empty⟩ ++ [.take t.monotonic (some u.handle.text)] := by
  obtain ⟨page, f, served, found⟩ := shows_iff.mp shown
  obtain ⟨headers, request, opens⟩ := serve_eq_page served
  have own : s.calls rt hash (before ++ [t]) ⟨db, Table.empty⟩ =
      s.calls rt hash before ⟨db, Table.empty⟩ ++ [.take t.monotonic f] := by
    rw [calls_append, calls, served]
    rfl
  rw [List.append_cons, calls_append, own] at orderly
  rw [after_store] at found
  obtain ⟨handle, stashedAt, rfl, held, inTime⟩ := (returned_eq_some orderly.of_append).mp found
  have stashed : ∃ swept, StoreCall.stash swept stashedAt handle flash ∈
      s.calls rt hash before ⟨db, Table.empty⟩ := by
    obtain ⟨_, swept, _, same, -⟩ := held
    exact ⟨swept, by simp [same]⟩
  obtain ⟨swept, mem⟩ := stashed
  obtain ⟨early, u, late, rfl, called⟩ := mem_calls.mp mem
  rcases landed : (s.serve rt hash u (s.after rt hash early ⟨db, Table.empty⟩).db).1 with
    reply | ⟨path, flash'⟩ | ⟨page', f'⟩ <;> rw [landed] at called <;> cases called
  exact ⟨early, u, late, path, page, headers, rfl, landed, request, opens, inTime, held, own⟩

/-- Two pages that tell one secret are one: their submissions are the same, as no key is
created twice, and a handle is read once. -/
theorem not_shown_again {middle : List Exchange} {t' : Exchange} {flash' : Flash}
    (orderly : Orderly (s.calls rt hash (before ++ t :: middle ++ t' :: after) ⟨db, Table.empty⟩))
    (shown : s.Shows rt hash (s.after rt hash before ⟨db, Table.empty⟩) t flash)
    (secret : flash.secret = some plaintext)
    (shown' : s.Shows rt hash (s.after rt hash (before ++ t :: middle) ⟨db, Table.empty⟩) t' flash')
    (secret' : flash'.secret = some plaintext) : False := by
  obtain ⟨early', u', late', _, _, _, place', served', -, -, -, held', -⟩ :=
    held_of_shows orderly shown'
  rw [calls_append] at orderly
  have first := orderly.of_append
  obtain ⟨early, u, late, _, _, _, rfl, served, -, -, -, held, own⟩ := held_of_shows first shown
  have issues := issues_of_serve served secret
  have issues' := issues_of_serve served' secret'
  rw [List.append_assoc, List.cons_append] at place'
  rcases cut_cases place' with ⟨rfl, rfl⟩ | ⟨between, rfl⟩ | ⟨between, rfl⟩
  · rw [List.append_cons, calls_append, own, ← List.append_cons] at first held'
    exact not_held_after first held held'
  · rw [after_append] at issues'
    exact not_issues_again issues issues'
  · rw [after_append] at issues
    exact not_issues_again issues' issues

/-- A secret that a page tells is the key that a submission of the dashboard created at most
two minutes before, told to who has the password and the handle of that submission; and no
other page of the process tells it. -/
theorem secret_is_shown_once
    (orderly : Orderly (s.calls rt hash (before ++ t :: after) ⟨db, Table.empty⟩))
    (shown : s.Shows rt hash (s.after rt hash before ⟨db, Table.empty⟩) t flash)
    (secret : flash.secret = some plaintext) :
    (∃ early u late page headers, before = early ++ u :: late ∧
      s.Issues rt hash (s.after rt hash early ⟨db, Table.empty⟩) u plaintext ∧
      t.request = .get page headers (some u.handle.text) ∧ s.Opens headers ∧
      t.monotonic ≤ u.monotonic + ttl) ∧
    ∀ before' t' after' flash', before ++ t :: after = before' ++ t' :: after' →
      s.Shows rt hash (s.after rt hash before' ⟨db, Table.empty⟩) t' flash' →
        flash'.secret = some plaintext → before' = before := by
  constructor
  · obtain ⟨early, u, late, path, page, headers, place, served, request, opens, inTime, -, -⟩ :=
      held_of_shows orderly shown
    exact ⟨early, u, late, page, headers, place, issues_of_serve served secret,
      request, opens, inTime⟩
  · intro before' t' after' flash' place shown' secret'
    rcases cut_cases place with ⟨rfl, _⟩ | ⟨middle, rfl⟩ | ⟨middle, rfl⟩
    · rfl
    · rw [place] at orderly
      exact (not_shown_again orderly shown secret shown' secret').elim
    · exact (not_shown_again orderly shown' secret' shown secret).elim

end Process
end DashboardSettings

namespace Sample

def panelSettings : DashboardSettings :=
  { hunter with dashboardEnabled := true, idempotencyTtlHours := 24 }

def adminHeaders : GateHeaders := { authorization := some (utf8 "Basic YWRtaW46aHVudGVyMg==") }

def exchange (request : DashboardRequest) (now : Time) (handle : Handle) : Exchange where
  request := request
  readable := true
  now := now
  swept := now
  monotonic := now
  handle := handle
  id := 2
  token := "0a1b2c3d"
  rival := none
  jobs := id
  race := noRace
  stamp := stamp
  baseUrl := "http://localhost"
  draw := ⟨1, ulid⟩

/-- The form that creates a key of the shop. -/
def keyForm : List (String × String) := [("csrf_token", hunter.issueToken), ("name", "till"),
  ("project", "shop"), ("mailbox", "noreply@shop.example")]

def creation : Exchange :=
  exchange (.post .keysCreate adminHeaders (formBody keyForm)) 0 firstHandle

def keysPage (now : Time) : Exchange :=
  exchange (.get .keys adminHeaders (some "4f")) now otherHandle

def tillFlash : Flash where
  ok := some "Created key 'till'."
  secret := some "em_live_0a1b2c3d"
  secretLabel := some "Scoped to noreply@shop.example"

end Sample

namespace DashboardSettings
open Sample

theorem creation_admitted : panelSettings.Admits creation := by
  refine ⟨by decide +kernel, ?_, fun stated => absurd rfl stated⟩
  rw [one, parseForm_formBody]
  decide +kernel

theorem creation_served : (panelSettings.serve runtime (fun _ => "") creation (store mailbox)).1 =
    .back "/keys" tillFlash := by
  have read (field : String) := parseForm_formBody keyForm field
  have request : creation.request = .post .keysCreate adminHeaders (formBody keyForm) := rfl
  rw [serve_of_admits request creation_admitted]
  simp only [perform, one, many, read]
  decide +kernel

theorem keysPage_served (now : Time) (db : Database) :
    panelSettings.serve runtime (fun _ => "") (keysPage now) db =
      (.page .keys (some "4f"), db) := by
  have passed : panelSettings.guard adminHeaders = .ok none :=
    guard_eq_none.mpr (by decide +kernel)
  have asked : (keysPage now).request = .get .keys adminHeaders (some "4f") := rfl
  simp only [serve, asked, DashboardRequest.headers, passed]
  rfl

/-- The page tells the key at the last moment. -/
theorem till_key_is_told : ∃ early u late page headers, [creation] = early ++ u :: late ∧
    panelSettings.Issues runtime (fun _ => "") (panelSettings.after runtime (fun _ => "") early
      ⟨store mailbox, Table.empty⟩) u "em_live_0a1b2c3d" ∧
    (keysPage (seconds 120)).request = .get page headers (some u.handle.text) ∧
    panelSettings.Opens headers ∧ (keysPage (seconds 120)).monotonic ≤ u.monotonic + ttl := by
  have asked : panelSettings.calls runtime (fun _ => "")
      ([creation] ++ keysPage (seconds 120) :: []) ⟨store mailbox, Table.empty⟩ =
        [.stash 0 0 firstHandle tillFlash, .take (seconds 120) (some "4f")] := by
    simp only [List.cons_append, List.nil_append, calls, creation_served, keysPage_served]
    rfl
  have told : panelSettings.Shows runtime (fun _ => "") (panelSettings.after runtime (fun _ => "")
      [creation] ⟨store mailbox, Table.empty⟩) (keysPage (seconds 120)) tillFlash := by
    refine shows_iff.mpr ⟨.keys, some "4f", by rw [keysPage_served], ?_⟩
    rw [after_store, calls, creation_served]
    rfl
  have orderly : Orderly (panelSettings.calls runtime (fun _ => "")
      ([creation] ++ keysPage (seconds 120) :: []) ⟨store mailbox, Table.empty⟩) := by
    rw [asked]
    exact ⟨by decide, by decide⟩
  exact (secret_is_shown_once orderly told rfl).1

end DashboardSettings
end Emaild
