import Emaild.Mxroute

/-!
Which error answers the client reports as such. An answer is told from success by
its status where the client knows the status, and otherwise by its body.
-/
namespace Emaild.Mxroute
open Text

/-- The budget header, if there is one, can be read where it consists of digits. -/
def Response.BudgetReadable (response : Response) : Prop :=
  ∀ remaining ∈ response.remaining, isDigit remaining = true → intOfDigits? remaining ≠ none

theorem logBudget_eq_ok {response : Response} :
    response.logBudget = .ok () ↔ response.BudgetReadable := by
  unfold Response.logBudget Response.BudgetReadable
  cases response.remaining with
  | none => simp
  | some remaining => simp

/-- What stands under `error` in a payload. -/
def reason (payload : Json) : Json := ((payload.get? "error").getD .null).orElse (.object [])

/-- A status that is an error whatever the body. -/
def StatusTells (r : Request) (status : Nat) : Prop :=
  status = 401 ∨ status = 403 ∨ status = 405 ∨ status = 409 ∨ (status = 404 ∧ r.method ≠ .get)

instance (r : Request) (status : Nat) : Decidable (StatusTells r status) :=
  inferInstanceAs (Decidable (_ ∨ _))

/-- A body from which an error is made: there is one, it can be parsed or is seen not to
be JSON, and if it says that the request failed it gives its reason as an object. -/
def Body.Tells : Body → Prop
  | .empty | .tooDeep => False
  | .notJson _ => True
  | .json payload => Decoding.refused payload = true → ∃ members, reason payload = .object members

/-- An error answer that is recognised and can be read. -/
def Response.Told (response : Response) (r : Request) : Prop :=
  response.BudgetReadable ∧ (StatusTells r response.status ∨ response.body.Tells)

namespace Decoding
variable (d : Decoding)

theorem refusal_is_provider (status : Nat) (payload : Json) :
    (∃ e, d.refusal status payload = .provider e) ↔
      ∃ members, reason payload = .object members := by
  unfold refusal
  rw [show ((payload.get? "error").getD .null).orElse (.object []) = reason payload from rfl]
  cases reason payload with
  | object members =>
      simp only [Json.getD?_object, Json.get?_object]
      split_ifs <;> simp
  | _ => simp [Json.getD?, Json.get?]

/-- For an error status: what `_handle` raises is one of the client's own errors exactly
when the status or the body tells. -/
theorem handle_error_iff {response : Response} {r : Request} (error : 400 ≤ response.status) :
    (∃ e, d.handle response r = .error (.provider e)) ↔
      StatusTells r response.status ∨ response.body.Tells := by
  unfold handle
  dsimp only
  by_cases told : StatusTells r response.status
  · simp only [told, true_or, iff_true]
    rcases told with same | same | same | same | ⟨same, write⟩
    · simp [same]
    · simp [same]
    · by_cases get : r.method = .get <;> simp [same, get]
    · simp [same]
    · simp [same, write]
  · simp only [told, false_or]
    simp only [StatusTells, not_or, not_and, not_not] at told
    obtain ⟨auth, forbidden, absent, conflict, missing⟩ := told
    have write : ¬ ((response.status = 404 ∨ response.status = 405) ∧ r.method ≠ .get) :=
      fun ⟨status, write⟩ => status.elim (fun same => write (missing same)) absent
    rw [if_neg (by omega), if_neg write, if_neg absent, if_neg conflict, if_neg (by omega)]
    cases response.body with
    | empty | tooDeep => simp [Body.Tells]
    | notJson bytes => simp [Body.Tells]
    | json payload =>
        simp only [Body.Tells]
        by_cases refuses : refused payload = true
        · simpa [refuses] using d.refusal_is_provider response.status payload
        · simp [refuses, error]

theorem answer_error_iff {response : Response} {r : Request} (error : 400 ≤ response.status) :
    (∃ e, d.answer response r = .error (.provider e)) ↔ response.Told r := by
  unfold Response.Told answer
  rw [← d.handle_error_iff error, ← logBudget_eq_ok]
  cases logged : response.logBudget with
  | ok u =>
      change (∃ e, d.handle response r = .error (.provider e)) ↔ _
      simp
  | error e =>
      change (∃ e', Except.error e = Except.error (.provider e')) ↔ _
      have builtin : e = .builtin "ValueError" := by
        unfold Response.logBudget at logged
        split at logged
        · split at logged <;> cases logged
          rfl
        · cases logged
      simp [builtin]

end Decoding

namespace Client
variable {σ : Type} (c : Client σ)

/-- The answer on which the attempts that are left end, if they end on one. -/
def lastAnswer (r : Request) : List Nat → σ → Option Response
  | [], _ => none
  | attempt :: rest, far =>
      match c.send r attempt (c.acquire r.method far) with
      | (.error _, far) => lastAnswer r rest (c.backOff attempt far)
      | (.ok response, far) =>
          if response.status = 429 then
            (c.retryDelay response).bind fun delay => lastAnswer r rest (c.pause delay far)
          else some response

/-- The outcome of the attempts is what is made of the answer on which they end. -/
theorem attempts_of_lastAnswer {r : Request} {attempts : List Nat} {far : σ}
    {response : Response} (ends : c.lastAnswer r attempts far = some response)
    (last : Option MxrouteError) :
    (c.attempts r attempts last far).1 = c.answer response r := by
  induction attempts generalizing far last with
  | nil => cases ends
  | cons attempt rest ih =>
      rw [lastAnswer] at ends
      rw [Client.attempts]
      cases sent : c.send r attempt (c.acquire r.method far) with
      | mk result after =>
          rw [sent] at ends
          cases result with
          | error failure => exact ih ends _
          | ok answered =>
              dsimp only at ends ⊢
              by_cases limited : answered.status = 429
              · rw [if_pos limited] at ends ⊢
                obtain ⟨delay, read, ends⟩ := Option.bind_eq_some_iff.mp ends
                rw [read]
                exact ih ends _
              · rw [if_neg limited] at ends ⊢
                cases ends
                rfl

/-- An error answer on which a request ends makes it raise one of the client's errors
exactly when it can be read and its status or its body tells. -/
theorem error_answer_raises_iff {r : Request} {far : σ} {response : Response}
    (ends : c.lastAnswer r (List.range' 1 maxAttempts) far = some response)
    (error : 400 ≤ response.status) :
    (∃ e, (c.request r far).1 = .error (.provider e)) ↔ response.Told r := by
  rw [request, c.attempts_of_lastAnswer ends]
  exact c.answer_error_iff error

end Client

namespace Sample

/-- A provider that answers every request alike. -/
def always (response : Response) : Client Unit where
  str _ := ""
  float _ := none
  acquire _ far := far
  pause _ far := far
  send _ _ far := (.ok response, far)

end Sample

/-- A server error without a body is reported as success. -/
theorem empty_error_is_success :
    (Sample.always { status := 500, body := .empty }).lastAnswer (.createDomain "shop.example")
      (List.range' 1 Client.maxAttempts) () = some { status := 500, body := .empty } ∧
    ((Sample.always { status := 500, body := .empty }).request
      (.createDomain "shop.example") ()).1 = .ok .null :=
  ⟨rfl, rfl⟩

/-- With a body that is not JSON it is reported as an error. -/
theorem garbled_error_raises :
    ∃ e, ((Sample.always { status := 500, body := .notJson 12 }).request
      (.createDomain "shop.example") ()).1 = .error (.provider e) :=
  (Client.error_answer_raises_iff (Sample.always { status := 500, body := .notJson 12 }) rfl
    (by decide)).mpr ⟨nofun, .inr trivial⟩

end Emaild.Mxroute
