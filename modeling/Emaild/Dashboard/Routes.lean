import Emaild.Dashboard.FormBody
import Emaild.Dashboard.Forms
import Emaild.Dashboard.Gates
import Emaild.Dashboard.TestMessage
import Emaild.Jobs
import Emaild.Management

/-!
The routes of the dashboard. A page is behind the password; a submission is behind the
password and the token of the form, does its work in a transaction of its own and redirects,
with what it has to tell under a handle that is read once.
-/
namespace Emaild
open Relational Text

/-- What a redirect leaves for the page it leads to. -/
structure Flash where
  ok : Option String := none
  error : Option String := none
  secret : Option String := none
  secretLabel : Option String := none
  deriving DecidableEq

/-- The routes that are submitted to. -/
inductive Mutation
  | domainsAdd
  | domainsVerify
  | keysCreate
  | keysRevoke
  | projectsCreate
  | testSend
  | suppressionsAdd
  | suppressionsRemove

inductive Page
  | overview
  | integrate
  | domains
  | messages
  | messageDetail (publicId : String)
  | keys
  | test
  | suppressions
  deriving DecidableEq

inductive DashboardRequest
  | get (page : Page) (headers : GateHeaders) (f : Option String)
  | post (route : Mutation) (headers : GateHeaders) (body : List UInt8)

def DashboardRequest.headers : DashboardRequest → GateHeaders
  | get _ headers _ | post _ headers _ => headers

/-- A request, with what the clocks show and what is drawn while it is served, what other
transactions commit meanwhile, and whether what a page shows can be read. -/
structure Exchange where
  request : DashboardRequest
  readable : Bool
  now : Time
  swept : Time
  monotonic : Time
  handle : Handle
  id : Nat
  token : String
  rival : Option Project
  jobs : Jobs → Jobs
  race : Race
  stamp : Stamp
  baseUrl : String
  draw : IngestDraw

/-- The settings, and what is fixed while the process runs. -/
structure DashboardSettings extends Gatekeeper where
  dashboardEnabled : Bool
  idempotencyTtlHours : Nat

inductive RouteResponse
  /-- 404 -/
  | disabled
  | refused (response : GateResponse)
  /-- An exception has left the route. -/
  | failed
  | redirect (path : String)
  | back (path : String) (handle : Handle)
  | page (page : Page) (csrfToken : String) (flash : Option Flash)
  deriving DecidableEq

/-- There is neither a page nor a handle in the answer. -/
def RouteResponse.Plain : RouteResponse → Prop
  | disabled | refused _ | failed | redirect _ => True
  | back .. | page .. => False

/-- What is left to do once the database has been read or changed. -/
inductive Landing
  | reply (reply : RouteResponse)
  | back (path : String) (flash : Flash)
  | page (page : Page) (f : Option String)
  deriving DecidableEq

structure Panel where
  db : Database
  store : OneShot Flash

/-! The work of the routes. -/

section Scope
variable {σ α : Type}

/-- A `try` within `async with session_scope()`, whose handler returns. -/
def caughtScope (handler : Raised → Option String) (x : Tx σ Raised α) (s : σ) :
    Except Raised (Except String α) × σ :=
  sessionScope (do
    match ← Tx.attempt x with
    | .ok a => return .ok a
    | .error e => match handler e with
      | some text => return .error text
      | none => throw e) s

/-- A function on the store that commits or fails. -/
def Tx.ofUpdate (f : σ → Except Raised (α × σ)) : Tx σ Raised α := fun s =>
  match f s.working with
  | .ok (a, working) => (.ok a, { s with working := working })
  | .error e => (.error e, s)

end Scope

def managementText : Raised → Option String
  | .management text => some text
  | _ => none

def jobText : Raised → Option String
  | .job text => some text
  | _ => none

def refusalText : Raised → Option String
  | .sendRefused text => some text
  | _ => none

def addressText : Raised → Option String
  | .invalidAddress text => some text
  | _ => none

/-- Where a submission that is turned down leads back to. -/
def Mutation.path : Mutation → String
  | domainsAdd | domainsVerify => "/domains"
  | keysCreate | keysRevoke | projectsCreate => "/keys"
  | testSend => "/test"
  | suppressionsAdd | suppressionsRemove => "/suppressions"

section Work
variable (rt : Runtime) (hash : List (String × PayloadValue) → String) (ttlHours : Nat)
  (form : Dict String (List String)) (t : Exchange) (db : Database)

/-- `enqueue`, on the table of the jobs. -/
def enqueueJob (jobType : JobType) : Except Raised (Except String ProvisioningJob) × Database :=
  let (result, jobs) := caughtScope jobText (enqueue rt
    { jobType := jobType, payload := [("domain", .string (one form "domain"))]
      requestedBy := "dashboard", id := t.id, createdAt := t.now } t.jobs) db.provisioningJobs
  (result, { db with provisioningJobs := jobs })

/-- The redirect of a route whose scope has ended. -/
def landing {α : Type} (route : Mutation) (told : α → String × Flash) :
    Except Raised (Except String α) × Database → Landing × Database
  | (.error _, db) => (.reply .failed, db)
  | (.ok (.error text), db) => (.back route.path { error := some text }, db)
  | (.ok (.ok a), db) => (.back (told a).1 (told a).2, db)

/-- What a route does with a form that has passed the gates. -/
def perform : Mutation → Landing × Database
  | .domainsAdd => landing .domainsAdd (fun _ => ("/domains",
      { ok := some ("Queued. It runs on the server within a few seconds — " ++
          "refresh to see the result.") })) (enqueueJob rt form t db .addDomain)
  | .domainsVerify =>
      let domain := one form "domain"
      landing .domainsVerify (fun _ => ("/domains",
        { ok := some s!"Re-checking {domain} — refresh in a moment." }))
        (enqueueJob rt form t db .verifyDomain)
  | .keysCreate =>
      let name := one form "name"
      landing .keysCreate (fun (_, plaintext, scopes) => ("/keys",
        { ok := some s!"Created key '{name}'.", secret := some plaintext
          secretLabel := some ("Scoped to " ++ ", ".intercalate scopes) }))
        (caughtScope managementText (Tx.ofUpdate fun db => createApiKey rt db name
          (one form "project") (many form "mailbox") ⟨t.id, t.token⟩) db)
  | .keysRevoke => landing .keysRevoke (fun message => ("/keys", { ok := some message }))
      (caughtScope managementText
        (Tx.ofUpdate fun db => revokeApiKey db (one form "name") t.now) db)
  | .projectsCreate =>
      let name := one form "name"
      landing .projectsCreate (fun _ => ("/keys", { ok := some s!"Created project '{name}'." }))
        (caughtScope managementText (createProject name (some (one form "description")) t.id
          t.rival) db)
  | .testSend => landing .testSend (fun publicId => (s!"/messages/{publicId}",
      { ok := some ("Test message queued. Watch the timeline below: it should reach " ++
          "accepted_by_provider within a few seconds. Refresh to update.") }))
      (caughtScope refusalText (sendTestMessage rt hash ttlHours
        { option := one form "option", recipient := one form "recipient", baseUrl := t.baseUrl
          stamp := t.stamp, draw := t.draw, now := t.now }) db)
  | .suppressionsAdd =>
      let address := one form "address"
      let reason := one form "reason"
      landing .suppressionsAdd (fun (_, created) => ("/suppressions",
        { ok := some (if created then s!"Suppressed {address}."
            else s!"{address} was already suppressed; nothing changed.") }))
        (caughtScope addressText (addSuppression rt t.race t.now address .manual
          (some (if reason = "" then "added from the dashboard" else reason)) none) db)
  | .suppressionsRemove =>
      let address := one form "address"
      -- nothing is caught here
      landing .suppressionsRemove (fun removed => ("/suppressions",
        if removed then { ok := some s!"Resumed sending to {address}." }
          else { error := some s!"{address} is not on the suppression list." }))
        (caughtScope (fun _ => none) (Tx.ofUpdate fun db => removeSuppression rt db address) db)

end Work

/-- The rows of a page about one message, if there are any. -/
def Database.hasMessage (db : Database) (publicId : String) : Bool :=
  db.messages.rows.any fun m => m.publicId = publicId && db.projects.rows.any fun p =>
    p.id = m.projectId

/-- A page comes to what it shows. -/
def Page.landing (page : Page) (f : Option String) (readable : Bool) (db : Database) : Landing :=
  if !readable then .reply .failed
  else match page with
    | messageDetail publicId =>
        if db.hasMessage publicId then .page page f else .reply (.redirect "/messages")
    | _ => .page page f

/-- What is done to the one-shot values at the end. -/
def Landing.call? (t : Exchange) : Landing → Option (StoreCall Flash)
  | .reply _ => none
  | .back _ flash => some (.stash t.swept t.monotonic t.handle flash)
  | .page _ f => some (.take t.monotonic f)

namespace DashboardSettings
variable (s : DashboardSettings) (rt : Runtime) (hash : List (String × PayloadValue) → String)

/-- `_guard`, of the settings that the process has. -/
def guard (headers : GateHeaders) : Except Raised (Option RouteResponse) :=
  if s.dashboardEnabled then (s.checkDashboardAuth headers).map (Option.map .refused)
  else .ok (some .disabled)

/-- `_reject_bad_csrf` -/
def rejectBadCsrf (headers : GateHeaders) (form : Dict String (List String)) :
    Except Raised (Option String) :=
  s.verify headers (some (one form "csrf_token"))

/-- What a request comes to, and what it leaves in the database. Every route asks for the
password first. -/
def serve (t : Exchange) (db : Database) : Landing × Database :=
  match s.guard t.request.headers with
  | .error _ => (.reply .failed, db)
  | .ok (some refused) => (.reply refused, db)
  | .ok none => match t.request with
    | .get page _ f => (page.landing f t.readable db, db)
    | .post route headers body =>
        let form := parseForm body
        match s.rejectBadCsrf headers form with
        | .error _ => (.reply .failed, db)
        | .ok (some reason) => (.back route.path { error := some reason }, db)
        | .ok none => perform rt hash s.idempotencyTtlHours form t db route

/-- `_back` and `_base` -/
def finish (t : Exchange) (store : OneShot Flash) : Landing → RouteResponse × OneShot Flash
  | .reply reply => (reply, store)
  | .back path flash => (.back path t.handle, store.stash t.swept t.monotonic t.handle flash)
  | .page page f =>
      let (flash, store) := store.take t.monotonic f
      (.page page s.issueToken flash, store)

def handle (p : Panel) (t : Exchange) : RouteResponse × Panel :=
  let (landing, db) := s.serve rt hash t p.db
  let (reply, store) := s.finish t p.store landing
  (reply, { db := db, store := store })

/-! Runs of requests, one after the other. -/

def after (ts : List Exchange) (p : Panel) : Panel :=
  ts.foldl (fun p t => (s.handle rt hash p t).2) p

/-- The requests with their answers. -/
def answers : List Exchange → Panel → List (Exchange × RouteResponse)
  | [], _ => []
  | t :: ts, p => (t, (s.handle rt hash p t).1) :: answers ts (s.handle rt hash p t).2

end DashboardSettings

namespace DashboardSettings
variable (s : DashboardSettings)

/-- The password is presented, where one is set. -/
def Opens (headers : GateHeaders) : Prop :=
  s.dashboardEnabled = true ∧ (orEmpty s.dashboardToken = "" ∨
    basicPassword? (headerText headers.authorization) = some (orEmpty s.dashboardToken) ∧
      Text.isAscii (orEmpty s.dashboardToken) = true)

/-- A form of the dashboard, submitted from the dashboard. -/
def Genuine (headers : GateHeaders) (body : List UInt8) : Prop :=
  one (parseForm body) "csrf_token" = s.issueToken ∧ headers.NamesHost

def Admits (t : Exchange) : Prop :=
  match t.request with
  | .get .. => False
  | .post _ headers body => s.Opens headers ∧ s.Genuine headers body

instance (headers : GateHeaders) : Decidable (s.Opens headers) :=
  inferInstanceAs (Decidable (_ ∧ _))

instance (headers : GateHeaders) (body : List UInt8) : Decidable (s.Genuine headers body) :=
  inferInstanceAs (Decidable (_ ∧ _))

instance (t : Exchange) : Decidable (s.Admits t) := by
  unfold Admits
  split <;> infer_instance

end DashboardSettings

theorem GateHeaders.NamesHost.not_misstated {headers : GateHeaders} (names : headers.NamesHost) :
    ¬ headers.Misstated := by
  rintro ⟨stated, -, misfit⟩
  have named := (names stated).2
  rw [netloc?_eq, misfit] at named
  cases named

namespace Gatekeeper
variable {g : Gatekeeper} {headers : GateHeaders}

theorem compareDigest_eq_true {a b : String} :
    compareDigest a b = .ok true ↔ a = b ∧ Text.isAscii b = true := by
  unfold compareDigest
  by_cases same : a = b
  · subst same
    cases Text.isAscii a <;> simp
  · cases Text.isAscii a <;> cases Text.isAscii b <;> simp [same]

theorem checkDashboardAuth_eq_none :
    g.checkDashboardAuth headers = .ok none ↔ orEmpty g.dashboardToken = "" ∨
      basicPassword? (headerText headers.authorization) = some (orEmpty g.dashboardToken) ∧
        Text.isAscii (orEmpty g.dashboardToken) = true := by
  simp only [checkDashboardAuth]
  by_cases unset : orEmpty g.dashboardToken = ""
  · simp [unset]
  rw [if_neg unset]
  cases basicPassword? (headerText headers.authorization) with
  | none => simp [unset]
  | some presented =>
      simp only [unset, false_or, Option.some.injEq, ← compareDigest_eq_true]
      cases compared : compareDigest presented (orEmpty g.dashboardToken) with
      | error e => constructor <;> intro passes <;> cases passes
      | ok same =>
          cases same
          · constructor <;> intro passes <;> cases passes
          · exact ⟨fun _ => rfl, fun _ => rfl⟩

theorem verify_eq_none {text : String} :
    g.verify headers (some text) = .ok none ↔ text = g.issueToken ∧ headers.NamesHost := by
  by_cases misstated : headers.Misstated
  · rw [verify_misstated misstated]
    refine ⟨(fun h => nomatch h), fun ⟨_, names⟩ => ?_⟩
    exact (names.not_misstated misstated).elim
  by_cases foreign : headers.NamesHost ∧ Text.isAscii text = false
  · rw [verify_foreign misstated foreign.1 rfl foreign.2]
    refine ⟨(fun h => nomatch h), fun ⟨same, _⟩ => ?_⟩
    rw [same, issueToken, isAscii_hex] at foreign
    cases foreign.2
  · have comparable : headers.NamesHost → ∀ given, some text = some given →
        Text.isAscii given = true := by
      rintro names given ⟨⟩
      by_contra other
      exact foreign ⟨names, Bool.eq_false_iff.mpr other⟩
    obtain ⟨answer, answered, passes⟩ := verify_eq misstated comparable
    rw [answered, Except.ok.injEq, passes, Option.some.injEq]

end Gatekeeper

theorem Page.landing_cases (page : Page) (f : Option String) (readable : Bool) (db : Database) :
    page.landing f readable db = .page page f ∨
      ∃ reply, reply.Plain ∧ page.landing f readable db = .reply reply := by
  unfold landing
  split
  · exact .inr ⟨.failed, trivial, rfl⟩
  · split
    · split
      · exact .inl rfl
      · exact .inr ⟨.redirect "/messages", trivial, rfl⟩
    · exact .inl rfl

namespace DashboardSettings
variable {s : DashboardSettings} {rt : Runtime} {hash : List (String × PayloadValue) → String}
  {headers : GateHeaders} {t : Exchange} {db : Database} {p : Panel}

theorem guard_eq_none : s.guard headers = .ok none ↔ s.Opens headers := by
  unfold guard Opens
  rw [← Gatekeeper.checkDashboardAuth_eq_none]
  cases s.dashboardEnabled with
  | false => simp
  | true =>
      rcases s.checkDashboardAuth headers with e | (_ | refused)
      · exact ⟨(fun h => nomatch h), (fun h => nomatch h.2)⟩
      · exact ⟨fun _ => ⟨rfl, rfl⟩, fun _ => rfl⟩
      · exact ⟨(fun h => nomatch h), (fun h => nomatch h.2)⟩

theorem guard_plain {reply : RouteResponse} (refused : s.guard headers = .ok (some reply)) :
    reply.Plain := by
  unfold guard at refused
  split at refused
  · rcases answer : s.checkDashboardAuth headers with e | (_ | response) <;>
      rw [answer] at refused <;>
      cases refused
    trivial
  · cases refused
    trivial

theorem rejectBadCsrf_eq_none {body : List UInt8} :
    s.rejectBadCsrf headers (parseForm body) = .ok none ↔ s.Genuine headers body :=
  Gatekeeper.verify_eq_none

/-- Without the password a request is answered alike whatever there is to see. -/
theorem serve_of_not_opens (rt : Runtime) (hash : List (String × PayloadValue) → String)
    (closed : ¬ s.Opens t.request.headers) :
    ∃ reply, reply.Plain ∧ ∀ db, s.serve rt hash t db = (.reply reply, db) := by
  have refuses : s.guard t.request.headers ≠ .ok none :=
    fun passed => closed (guard_eq_none.mp passed)
  unfold serve
  rcases answer : s.guard t.request.headers with e | (_ | refused)
  · exact ⟨.failed, trivial, fun _ => rfl⟩
  · exact absurd answer refuses
  · exact ⟨refused, guard_plain answer, fun _ => rfl⟩

/-- What a request can come to: an answer of its own, a page, a form that is turned down, or
the work of the route. -/
theorem serve_cases (s : DashboardSettings) (rt : Runtime)
    (hash : List (String × PayloadValue) → String) (t : Exchange) (db : Database) :
    (∃ reply, reply.Plain ∧ s.serve rt hash t db = (.reply reply, db)) ∨
      (∃ page headers f, t.request = .get page headers f ∧ s.Opens headers ∧
        s.serve rt hash t db = (.page page f, db)) ∨
      (∃ path reason, s.serve rt hash t db = (.back path { error := some reason }, db)) ∨
      ∃ route headers body, t.request = .post route headers body ∧ s.Admits t ∧
        s.serve rt hash t db =
          perform rt hash s.idempotencyTtlHours (parseForm body) t db route := by
  by_cases opens : s.Opens t.request.headers
  case neg =>
    obtain ⟨reply, plain, answered⟩ := serve_of_not_opens rt hash opens
    exact .inl ⟨reply, plain, answered db⟩
  cases request : t.request with
  | get page headers f =>
      have passed : s.guard headers = .ok none := guard_eq_none.mpr (by rwa [request] at opens)
      simp only [serve, request, DashboardRequest.headers, passed]
      rcases page.landing_cases f t.readable db with shown | ⟨reply, plain, answered⟩
      · exact .inr (.inl ⟨page, headers, f, rfl, guard_eq_none.mp passed, by rw [shown]⟩)
      · exact .inl ⟨reply, plain, by rw [answered]⟩
  | post route headers body =>
      have passed : s.guard headers = .ok none := guard_eq_none.mpr (by rwa [request] at opens)
      simp only [serve, request, DashboardRequest.headers, passed]
      rcases answer : s.rejectBadCsrf headers (parseForm body) with e | (_ | reason)
      · exact .inl ⟨.failed, trivial, rfl⟩
      · refine .inr (.inr (.inr ⟨route, headers, body, rfl, ?_, rfl⟩))
        rw [Admits, request]
        exact ⟨guard_eq_none.mp passed, rejectBadCsrf_eq_none.mp answer⟩
      · exact .inr (.inr (.inl ⟨_, reason, rfl⟩))

theorem serve_of_admits {route : Mutation} {body : List UInt8}
    (request : t.request = .post route headers body) (admitted : s.Admits t) (db : Database) :
    s.serve rt hash t db = perform rt hash s.idempotencyTtlHours (parseForm body) t db route := by
  rw [Admits, request] at admitted
  simp only [serve, request, DashboardRequest.headers, guard_eq_none.mpr admitted.1,
    rejectBadCsrf_eq_none.mpr admitted.2]

theorem serve_of_not_admits (rejected : ¬ s.Admits t) (db : Database) :
    (s.serve rt hash t db).2 = db := by
  rcases serve_cases s rt hash t db with ⟨_, _, served⟩ | ⟨_, _, _, _, _, served⟩ |
    ⟨_, _, served⟩ | ⟨_, _, _, _, admitted, _⟩
  · rw [served]
  · rw [served]
  · rw [served]
  · exact absurd admitted rejected

theorem handle_of_not_opens (closed : ¬ s.Opens t.request.headers) (p : Panel) :
    (s.handle rt hash p t).2 = p := by
  obtain ⟨reply, -, answered⟩ := serve_of_not_opens rt hash closed
  rw [handle, answered]
  rfl

theorem handle_db (p : Panel) : (s.handle rt hash p t).2.db = (s.serve rt hash t p.db).2 := rfl

variable (s rt hash)

/-- Requests without the password leave no trace: the others are answered as if these had
not been made, and so are the values that are kept. -/
theorem strangers_are_invisible (ts : List Exchange) (p : Panel) :
    let known := ts.filter fun t => s.Opens t.request.headers
    s.after rt hash ts p = s.after rt hash known p ∧
      (s.answers rt hash ts p).filter (fun a => s.Opens a.1.request.headers) =
        s.answers rt hash known p := by
  induction ts generalizing p with
  | nil => exact ⟨rfl, rfl⟩
  | cons t ts ih =>
      by_cases opens : s.Opens t.request.headers
      · have rest := ih (s.handle rt hash p t).2
        simp only [List.filter_cons, opens, answers, decide_true, if_true, after, List.foldl_cons]
        exact ⟨rest.1, congrArg _ rest.2⟩
      · have rest := ih p
        simp only [List.filter_cons, opens, answers, decide_false,
          Bool.false_eq_true, if_false, after,
          List.foldl_cons, handle_of_not_opens opens]
        exact rest

/-- The database is what the submissions have made of it that come with the password, from a
form of the dashboard and from its own site. -/
theorem database_of_admitted (ts : List Exchange) (p : Panel) :
    (s.after rt hash ts p).db = (s.after rt hash (ts.filter fun t => s.Admits t) p).db := by
  suffices general : ∀ q : Panel, p.db = q.db → (s.after rt hash ts p).db =
      (s.after rt hash (ts.filter fun t => s.Admits t) q).db from general p rfl
  induction ts generalizing p with
  | nil => exact fun q same => same
  | cons t ts ih =>
      intro q same
      by_cases admitted : s.Admits t
      · simp only [List.filter_cons, admitted, decide_true, if_true, after, List.foldl_cons]
        exact ih _ _ (by rw [handle_db, handle_db, same])
      · simp only [List.filter_cons, admitted, decide_false, Bool.false_eq_true, if_false, after,
          List.foldl_cons]
        exact ih _ q (by rw [handle_db, serve_of_not_admits admitted, same])

end DashboardSettings
end Emaild
