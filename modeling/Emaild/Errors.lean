import Emaild.Text.Python

/-!
The exceptions of the modelled code, and the functions of the interpreter's
library that the model leaves open. What it relies on about them is stated as
laws next to them.
-/
namespace Emaild
open Text

inductive ErrorType
  | authenticationError | authorizationError | validationError | domainNotReady
  | suppressedRecipient | idempotencyConflict | idempotencyKeyReused
  deriving DecidableEq, Repr

structure ApiError where
  errorType : ErrorType
  message : String
  param : Option String := none
  deriving DecidableEq

/-- The family of `MXRouteError`; the first is the class itself. -/
inductive MxrouteError
  | failed (message : String)
  | auth (message : String)
  | notFound (message : String)
  | conflict (message : String)
  | unavailable (message : String)
  | api (code message : String) (fieldName : Option String)
  deriving DecidableEq

/-- `str(exc)` -/
def MxrouteError.text : MxrouteError → String
  | failed message | auth message | notFound message | conflict message
  | unavailable message => message
  | api code message none => s!"{code}: {message}"
  | api code message (some fieldName) => s!"{code}: {message} (field={fieldName})"

/-- What may leave a function. After the first eight they are raised by the
libraries under it: the interpreter, the database, the object mapper, the cipher,
the adapter. -/
inductive Raised
  | api (error : ApiError)
  | invalidAddress (message : String)
  | management (message : String)
  | provisioning (message : String)
  | policyViolation (message : String)
  | provider (error : MxrouteError)
  | job (message : String)
  | sendRefused (message : String)
  | lookupError (message : String)
  | builtin (kind : String)
  | indexError
  | dataError
  | integrityError
  | noResultFound
  | multipleResultsFound
  | missingGreenlet
  | adapterUnavailable
  | sendFailed
  deriving DecidableEq

/-- What the libraries raise. -/
def Raised.Library : Raised → Prop
  | builtin _ | indexError | dataError | integrityError | noResultFound | multipleResultsFound
  | missingGreenlet | adapterUnavailable | sendFailed => True
  | _ => False

/-- What `parseaddr` raises where comments or groups are nested too deeply for it. -/
def recursionError : Raised := .builtin "RecursionError"

/-! The exit codes of the administrator's commands. -/

def exitOk : Nat := 0
def exitUsage : Nat := 2
def exitFailed : Nat := 1

/-- Local part and domain are there, and the domain has a dot that is not its
first character. -/
def WellShaped (address : String) : Prop :=
  (rpartition '@' address).1 ≠ "" ∧ (rpartition '@' address).2 ≠ "" ∧
    '.' ∈ (rpartition '@' address).2.toList ∧ startsWith "." (rpartition '@' address).2 = false

instance (address : String) : Decidable (WellShaped address) :=
  inferInstanceAs (Decidable (_ ∧ _))

/-- The library that the model leaves open. `overflows` says on which texts `parseaddr` runs
out of stack, and `parseaddr` what it returns on the others. A string of the interpreter may
hold lone surrogates, where what was received is not in its encoding: `lone` says which
characters stand for them. -/
structure Runtime where
  parseaddr : String → String × String
  overflows : String → Bool
  lone : Char → Bool
  lower : String → String
  repr : String → String
  /-- The hexadecimal SHA-256 digest of a string. -/
  sha256 : String → String

namespace Runtime
variable (rt : Runtime)

/-- `parseaddr(raw)[1].strip().lower()`, where it returns. -/
def canonical (raw : String) : String := rt.lower (strip (rt.parseaddr raw).2)

/-- A text that a column takes. -/
def storesText (text : String) : Bool :=
  text.toList.all fun c => c ≠ '\x00' && (c.toNat < 128 || !rt.lone c)

theorem storesText_of_ascii {text : String}
    (ascii : (text.toList.all fun c => c ≠ '\x00' && c.toNat < 128) = true) :
    rt.storesText text = true := by
  refine List.all_eq_true.mpr fun c mem => ?_
  have plain := List.all_eq_true.mp ascii c mem
  rw [Bool.and_eq_true] at plain ⊢
  rw [plain.2]
  exact ⟨plain.1, rfl⟩

/-- A text that a column of limited length takes. -/
def columnTakes (limit : Nat) (text : String) : Bool :=
  decide (text.length ≤ limit) && rt.storesText text

/-- An address that the normaliser has produced and that passes the shape check is what the
normaliser makes of it again. -/
def CanonicalFixed : Prop :=
  ∀ raw, WellShaped (rt.canonical raw) → rt.canonical (rt.canonical raw) = rt.canonical raw

end Runtime

end Emaild
