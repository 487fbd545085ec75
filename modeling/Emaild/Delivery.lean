import Emaild.Classify

/-!
What the worker hands to a delivery adapter and what it gets back, with the
adapter that speaks SMTP. What the server and the network do is the input: the
adapter only reports it, one entry for each refused recipient.
-/
namespace Emaild
open Relational Text

structure OutboundMessage where
  publicId : String
  envelopeFrom : String
  fromAddress : String
  fromName : Option String
  «to» : List String
  cc : List String
  bcc : List String
  replyTo : Option String
  subject : Option String
  html : Option String
  text : Option String
  headers : Dict String String := Table.empty

def OutboundMessage.envelopeRecipients (m : OutboundMessage) : List String :=
  m.to ++ m.cc ++ m.bcc

/-- One SMTP reply: code and text. -/
abbrev Reply := Int × String

structure DeliveryResult where
  success : Bool
  code : Option Int := none
  response : Option String := none
  refused : Dict String Reply := Table.empty
  acceptedRecipients : List String := []

/-- `DeliveryResult.partial` -/
def DeliveryResult.isPartial (r : DeliveryResult) : Bool :=
  !r.refused.rows.isEmpty && !r.acceptedRecipients.isEmpty

/-- How the conversation with the server ends: `send_message` returns its error
map, or raises one of the three families of exceptions that `send` catches. -/
inductive WireOutcome
  | returned (errors : Dict String Reply) (response : String)
  | recipientsRefused (recipients : List (String × Reply))
  | responseException (code : Int) (message : String)
  | transportFailure (description : String)

/-- `SmtpAdapter.send` -/
def smtpSend (recipients : List String) : WireOutcome → DeliveryResult
  | .returned errors response =>
      let accepted := recipients.filter fun r => (errors.find? r).isNone
      { success := !accepted.isEmpty
        code := if accepted.isEmpty then none else some 250
        response :=
          if response ≠ "" then some response
          else if errors.rows.isEmpty then none else some "all recipients refused"
        refused := errors
        acceptedRecipients := accepted }
  | .recipientsRefused recipients =>
      -- the message as a whole carries the answer given to the first of them
      let refused := Dict.ofList recipients
      let first := match refused.rows with
        | [] => (550, "recipients refused")
        | (_, reply) :: _ => reply
      { success := false, code := some first.1, response := some first.2, refused := refused }
  | .responseException code message =>
      { success := false, code := some code, response := some message }
  | .transportFailure description =>
      { success := false, code := none, response := some description }

/-- A library that keeps its documented word: `SMTPRecipientsRefused` is raised
only when every recipient was refused, and names each of them. -/
def WireOutcome.Documented (recipients : List String) : WireOutcome → Prop
  | .recipientsRefused refused => ∀ r ∈ recipients, ∃ reply, (r, reply) ∈ refused
  | _ => True

end Emaild
