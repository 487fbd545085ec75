import Emaild.Errors
import Emaild.Models
import Emaild.Relational.Session
import Emaild.Text.Json
import Emaild.Text.Python

/-!
The client of the provider's control plane. What is beyond it (the network, the
provider, the clock) is a state of any kind that pacing, pauses and requests act
on; a request may be lost, or its answer may be. What an answer means is decided
by `handle`, and `request` tries up to three times.
-/
namespace Emaild.Mxroute
open Relational Text

inductive Method
  | get | post | put | patch | delete
  deriving DecidableEq

def Method.name : Method → String
  | get => "GET"
  | post => "POST"
  | put => "PUT"
  | patch => "PATCH"
  | delete => "DELETE"

/-- `_WRITE_METHODS` -/
def Method.isWrite (m : Method) : Bool := m ≠ get

/-- The body of `update_email_account`: the fields that are to change. -/
structure AccountChanges where
  password : Option String := none
  quota : Option Nat := none
  limit : Option Nat := none
  deriving DecidableEq

/-- The requests of the modelled calls, each with its body. -/
inductive Request
  | verificationKey
  | domains
  | createDomain (domain : String)
  | dns (domain : String)
  | createEmailAccount (domain username password : String) (quota limit : Nat)
  | updateEmailAccount (domain username : String) (changes : AccountChanges)
  deriving DecidableEq

namespace Request

def method : Request → Method
  | verificationKey | domains | dns _ => .get
  | createDomain _ | createEmailAccount .. => .post
  | updateEmailAccount .. => .patch

def path : Request → String
  | verificationKey => "/verification-key"
  | domains | createDomain _ => "/domains"
  | dns domain => s!"/domains/{domain}/dns"
  | createEmailAccount domain .. => s!"/domains/{domain}/email-accounts"
  | updateEmailAccount domain username _ => s!"/domains/{domain}/email-accounts/{username}"

/-- How the client's messages name a request. -/
def line (r : Request) : String := s!"{r.method.name} {r.path}"

end Request

inductive Body
  | empty
  | notJson (bytes : Nat)
  /-- Nested beyond what the interpreter's stack can take. -/
  | tooDeep
  | json (payload : Json)

structure Response where
  status : Nat
  retryAfter : Option String := none
  /-- `X-RateLimit-Remaining` -/
  remaining : Option String := none
  body : Body

/-- `_log_budget`: the header is only read. -/
def Response.logBudget (response : Response) : Except Raised Unit :=
  match response.remaining with
  | some remaining =>
      if isDigit remaining ∧ intOfDigits? remaining = none then .error (.builtin "ValueError")
      else .ok ()
  | none => .ok ()

/-- No answer arrives. -/
inductive TransportFailure
  | timeout
  | other (description : String)

def TransportFailure.error (r : Request) : TransportFailure → MxrouteError
  | timeout => .failed s!"timeout calling {r.line}"
  | other description => .failed s!"transport error calling {r.line}: {description}"

/-- Functions of the interpreter's library that the decoding of answers uses. -/
structure Decoding where
  str : Json → String
  /-- `float(value)`, in microseconds. -/
  float : String → Option Time

namespace Decoding
variable (d : Decoding)

/-- What a payload whose `success` is false raises. -/
def refusal (status : Nat) (payload : Json) : Raised :=
  let err := ((payload.get? "error").getD .null).orElse (.object [])
  match err.getD? "code" (.string "UNKNOWN"), err.getD? "message" (.string "not found"),
    err.getD? "message" (.string ""), err.get? "field" with
  | some code, some found, some message, some fieldName =>
      if d.str code = "NOT_FOUND" ∨ status = 404 then .provider (.notFound (d.str found))
      else .provider (.api (d.str code) (d.str message)
        (if fieldName.truthy then some (d.str fieldName) else none))
  | _, _, _, _ => .builtin "AttributeError"

/-- `payload.get("success") is False`, for a payload that is an object. -/
def refused : Json → Bool
  | .object members =>
      match members.lookup "success" with
      | some (.bool false) => true
      | _ => false
  | _ => false

/-- `_handle` -/
def handle (response : Response) (r : Request) : Except Raised Json :=
  let status := response.status
  if status = 401 ∨ status = 403 then
    .error (.provider (.auth s!"credentials rejected on {r.line} ({status})"))
  else if (status = 404 ∨ status = 405) ∧ r.method ≠ .get then
    .error (.provider (.unavailable s!"{r.line} unavailable ({status})"))
  else if status = 405 then
    .error (.provider (.unavailable s!"{r.line} not implemented by provider (405)"))
  else if status = 409 then
    .error (.provider (.conflict s!"{r.line} conflicts with existing resource"))
  else if status = 204 then .ok .null
  else match response.body with
    | .empty => .ok .null
    | .notJson bytes =>
        .error (.provider (.failed s!"{r.line} returned non-JSON ({status}); {bytes} bytes"))
    | .tooDeep => .error (.builtin "RecursionError")
    | .json payload =>
        if refused payload then .error (d.refusal status payload)
        else if 400 ≤ status then
          .error (.provider (.failed s!"{r.line} failed with HTTP {status}"))
        else match payload with
          | .object members => .ok ((members.lookup "data").getD payload)
          | _ => .ok payload

/-- What is taken for success: no content, an empty body, or a payload that does not
say otherwise under a status that does not either. -/
theorem handle_ok {response : Response} {r : Request} {value : Json}
    (h : d.handle response r = .ok value) :
    response.status = 204 ∨ response.body = .empty ∨ ∃ payload,
      response.body = .json payload ∧ refused payload = false ∧ response.status < 400 := by
  unfold handle at h
  dsimp only at h
  split at h
  · cases h
  split at h
  · cases h
  split at h
  · cases h
  split at h
  · cases h
  split at h
  · exact .inl ‹_›
  split at h
  · exact .inr (.inl ‹_›)
  · cases h
  · cases h
  · rename_i payload body
    refine .inr (.inr ⟨payload, body, ?_⟩)
    split at h
    · cases h
    split at h
    · cases h
    · rename_i granted high
      exact ⟨by simpa using granted, by omega⟩

/-- What becomes of an answer that is not retried. -/
def answer (response : Response) (r : Request) : Except Raised Json := do
  response.logBudget
  d.handle response r

theorem handle_of_answer {response : Response} {r : Request} {value : Json}
    (h : d.answer response r = .ok value) : d.handle response r = .ok value := by
  unfold answer at h
  cases logged : response.logBudget with
  | error e =>
      rw [logged] at h
      cases h
  | ok u =>
      rw [logged] at h
      exact h

/-- `float(response.headers.get("Retry-After", 5))` -/
def retryDelay (response : Response) : Option Time :=
  match response.retryAfter with
  | none => some (seconds 5)
  | some value => d.float value

end Decoding

/-- A client, with what lies beyond it: `acquire` is the pacing before each
attempt. -/
structure Client (σ : Type) extends Decoding where
  acquire : Method → σ → σ
  pause : Time → σ → σ
  send : Request → (attempt : Nat) → σ → Except TransportFailure Response × σ

namespace Client
variable {σ : Type} (c : Client σ)

def maxAttempts : Nat := 3

def rateLimited : MxrouteError := .failed "rate limited by provider"

/-- `min(2**attempt, 8)` seconds, unless the attempt was the last. -/
def backOff (attempt : Nat) (far : σ) : σ :=
  if attempt < maxAttempts then c.pause (seconds (min (2 ^ attempt) 8)) far else far

/-- The loop of `_request` over the attempts that are left. -/
def attempts (r : Request) : List Nat → Option MxrouteError → σ → Except Raised Json × σ
  | [], last, far =>
      (.error (.provider (last.getD
        (.failed s!"{r.line} failed after {maxAttempts} attempts"))), far)
  | attempt :: rest, _, far =>
      match c.send r attempt (c.acquire r.method far) with
      | (.error failure, far) => attempts r rest (some (failure.error r)) (c.backOff attempt far)
      | (.ok response, far) =>
          if response.status = 429 then
            match c.retryDelay response with
            | none => (.error (.builtin "ValueError"), far)
            | some delay => attempts r rest (some rateLimited) (c.pause delay far)
          else (c.answer response r, far)

/-- `_request` -/
def request (r : Request) (far : σ) : Except Raised Json × σ :=
  c.attempts r (List.range' 1 maxAttempts) none far

/-- `dict(value or {})` -/
def dict (value : Json) : Except Raised Json :=
  match (value.orElse (.object [])).dict? with
  | some members => .ok (.object members)
  | none => .error (.builtin "TypeError")

/-- `list(value or [])` -/
def list (value : Json) : Except Raised (List Json) :=
  match (value.orElse (.array [])).items? with
  | some items => .ok items
  | none => .error (.builtin "TypeError")

/-- A call: a request, and what is made of its payload. -/
def call {α : Type} (r : Request) (decode : Json → Except Raised α) (far : σ) :
    Except Raised α × σ :=
  let (result, far) := c.request r far
  (result >>= decode, far)

def getVerificationKey : σ → Except Raised Json × σ := c.call .verificationKey dict

def listDomains : σ → Except Raised (List Json) × σ := c.call .domains list

def createDomain (domain : String) : σ → Except Raised Json × σ :=
  c.call (.createDomain domain) dict

def getDns (domain : String) : σ → Except Raised Json × σ := c.call (.dns domain) dict

def createEmailAccount (domain username password : String) (quota limit : Nat) :
    σ → Except Raised Json × σ :=
  c.call (.createEmailAccount domain username password quota limit) .ok

def updateEmailAccount (domain username : String) (changes : AccountChanges) (far : σ) :
    Except Raised Json × σ :=
  if changes = {} then (.error (.builtin "ValueError"), far)
  else c.call (.updateEmailAccount domain username changes) .ok far

end Client
end Emaild.Mxroute

namespace Emaild
open Relational

/-- The database of the installation, and what lies beyond the provider's client. -/
structure World (σ : Type) where
  db : Database
  far : σ

namespace World
variable {σ α : Type}

def database : Tx (World σ) Raised Database := do return (← Tx.look).working.db

/-- A call of the client. What it brings about elsewhere survives a rollback. -/
def attempt (f : σ → Except Raised α × σ) : Tx (World σ) Raised (Except Raised α) := do
  let (result, far) := f (← Tx.look).working.far
  Tx.interfere fun w => { w with far := far }
  return result

/-- The same for a caller that does not catch what is raised. -/
def call (f : σ → Except Raised α × σ) : Tx (World σ) Raised α := do
  Tx.lift (← attempt f)

/-- What other transactions commit between two statements of this one. -/
def meanwhile (f : Database → Database) : Tx (World σ) Raised PUnit :=
  Tx.interfere fun w => { w with db := f w.db }

def edit (f : Database → Database) : Tx (World σ) Raised PUnit :=
  Tx.write fun w => { w with db := f w.db }

/-- A flush. One that the database refuses rolls the transaction back. -/
def flush (f : Database → Except Raised Database) : Tx (World σ) Raised PUnit := do
  match f (← Tx.look).working.db with
  | .ok db => Tx.write fun w => { w with db := db }
  | .error e =>
      Tx.rollback
      throw e

@[simp] theorem exec_database (s : Session (World σ)) :
    database.exec s = (.ok s.working.db, s) := rfl

theorem exec_attempt (f : σ → Except Raised α × σ) (s : Session (World σ)) :
    (attempt f).exec s = (.ok (f s.working.far).1,
      { s with
        committed := { s.committed with far := (f s.working.far).2 }
        working := { s.working with far := (f s.working.far).2 } }) := rfl

theorem exec_call (f : σ → Except Raised α × σ) (s : Session (World σ)) :
    (call f).exec s = ((f s.working.far).1,
      { s with
        committed := { s.committed with far := (f s.working.far).2 }
        working := { s.working with far := (f s.working.far).2 } }) := rfl

@[simp] theorem exec_meanwhile (f : Database → Database) (s : Session (World σ)) :
    (meanwhile f).exec s = (.ok ⟨⟩,
      { s with
        committed := { s.committed with db := f s.committed.db }
        working := { s.working with db := f s.working.db } }) := rfl

@[simp] theorem exec_edit (f : Database → Database) (s : Session (World σ)) :
    (edit f).exec s =
      (.ok ⟨⟩, { s with working := { s.working with db := f s.working.db } }) := rfl

theorem exec_flush (f : Database → Except Raised Database) (s : Session (World σ)) :
    (flush f).exec s = match f s.working.db with
      | .ok db => (.ok ⟨⟩, { s with working := { s.working with db := db } })
      | .error e => (.error e, ⟨s.committed, s.committed, true⟩) := by
  rw [flush, Tx.exec_bind_ok (Tx.exec_look s)]
  cases f s.working.db with
  | ok db => rfl
  | error e => rfl

theorem exec_of_flush_error {f : Database → Except Raised Database} {s s' : Session (World σ)}
    {e : Raised} (h : (flush f).exec s = (.error e, s')) :
    f s.working.db = .error e ∧ s' = ⟨s.committed, s.committed, true⟩ := by
  rw [exec_flush] at h
  split at h
  · cases h
  · rename_i refused
    cases h
    exact ⟨refused, rfl⟩

end World
end Emaild
