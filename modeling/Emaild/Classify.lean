import Emaild.Models
import Emaild.Text.Regex
import Emaild.Text.Python

/-!
What a provider's answer means: the ordered rule table of the failure
classifier, and the narrower question whether an answer says that the address
itself is dead.
-/
namespace Emaild
open Text Text.Regex

structure Verdict where
  failureClass : FailureClass
  retryable : Bool
  needsReview : Bool := false
  note : Option String := none
  deriving DecidableEq

structure Rule where
  code : Option Int
  pattern : Regex
  verdict : Verdict

/-- `_RULES`, in order: the first match wins. A rule without a code matches any. -/
def rules : List Rule := [
  { code := some 535
    pattern := word "incorrect authentication data"
    verdict := {
      failureClass := .authFailure, retryable := false, needsReview := true
      note := some ("stored SMTP credential is wrong; sending for this identity is broken " ++
        "until it is rotated") } },
  { code := some 550
    pattern := word "no such recipient here"
    verdict := { failureClass := .recipientRejected, retryable := false } },
  { code := some 550
    pattern := word "must match your login"
    verdict := {
      failureClass := .senderMismatch, retryable := false, needsReview := true
      note := some ("envelope sender did not equal the SMTP login -- a bug on our side, " ++
        "not the recipient's") } },
  { code := some 550
    pattern := word "only accepted from authorized IP ranges"
    verdict := { failureClass := .senderUnauthorized, retryable := false, needsReview := true } },
  -- the one permanent code that has to be retried
  { code := none
    pattern := oneOf [
      words ["rate limit", "too many messages", "message limit", "sending limit",
        "quota exceeded"],
      seq (word "exceeded ") (seq gap (word "limit")),
      words ["limit exceeded", "try again later", "throttl"]]
    verdict := {
      failureClass := .rateLimited, retryable := true
      note := some ("over the provider's hourly ceiling; our limiter should have " ++
        "prevented this reaching the wire") } },
  { code := none
    pattern := words ["user unknown", "no such user", "mailbox unavailable", "does not exist",
      "invalid recipient"]
    verdict := { failureClass := .recipientRejected, retryable := false } },
  { code := none
    pattern := words ["spam", "blocked", "blacklist", "reputation", "policy", "rejected due to"]
    verdict := { failureClass := .policyRejected, retryable := false, needsReview := true } },
  { code := none
    pattern := words ["message too large", "size exceeds", "exceeds maximum"]
    verdict := { failureClass := .messageInvalid, retryable := false } },
  { code := none
    pattern := words ["greylist", "greylisted", "temporarily deferred", "try again"]
    verdict := { failureClass := .providerDeferral, retryable := true } }]

def Rule.applies (r : Rule) (code : Int) (text : String) : Bool :=
  (match r.code with | some c => c == code | none => true) && r.pattern.search text

def classify (code : Option Int) (response : Option String) : Verdict :=
  let text := strip (orEmpty response)
  match code with
  | none => {
      failureClass := .connection, retryable := true
      note := some "no SMTP response: transport failure, nothing wrong with the message" }
  | some code =>
      match rules.find? fun r => r.applies code text with
      | some r => r.verdict
      | none =>
          if 200 ≤ code ∧ code < 300 then {
            failureClass := .unknown, retryable := false
            note := some "success misrouted to classify()" }
          else if 400 ≤ code ∧ code < 500 then
            { failureClass := .providerDeferral, retryable := true }
          else if 500 ≤ code then {
            failureClass := .unknown, retryable := true, needsReview := true
            note :=
              some s!"unrecognised {code} response; re-queued and flagged rather than discarded" }
          else { failureClass := .unknown, retryable := true, needsReview := true }

/-- `_ADDRESS_IS_DEAD` -/
def addressIsDead : Regex := oneOf [
  words ["no such recipient", "no such user", "user unknown", "unknown user"],
  seq (word "mailbox ") (words ["unavailable", "not found", "does not exist"]),
  seq (word "recipient ") (seq (optional (word "address ")) (word "rejected")),
  seq (word "address ") (words ["does not exist", "not found"]),
  words ["invalid recipient", "does not exist"]]

/-- Only a recipient-specific permanent failure counts against an address. -/
def shouldSuppress (code : Option Int) (response : Option String) (failureClass : FailureClass) :
    Bool :=
  failureClass == .recipientRejected &&
    (match code with | some c => 500 ≤ c && c < 600 | none => false) &&
      addressIsDead.search (orEmpty response)

/-- How an optional number prints. -/
def showCode : Option Int → String
  | some c => toString c
  | none => "None"

def suppressionReason (code : Option Int) (response : Option String) : String :=
  rstrip
    s!"auto: provider rejected recipient with {showCode code} {clip 180 (strip (orEmpty response))}"

end Emaild
