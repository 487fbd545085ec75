import Emaild.Delivery
import Emaild.Text.Regex

/-!
The SMTP adapter: one connection for each sender identity, kept up to the number
of messages the server advertises. What the server and the network do in a call
is its input.
-/
namespace Emaild
open Text

structure ServerLimits where
  maxMessagesPerConnection : Nat
  maxRecipients : Nat
  maxSizeBytes : Nat
  deriving DecidableEq

/-- `(\d+)` at the head of a text: its value, and what follows it. -/
def leadingNumber (text : List Char) : Option (Nat × List Char) :=
  let digits := text.takeWhile fun c => (digit? c).isSome
  if digits.isEmpty then none
  else some (digits.foldl (fun n c => 10 * n + (digit? c).getD 0) 0, text.drop digits.length)

/-- The number behind a keyword at the head of a text. -/
def keywordNumber (keyword : String) (text : List Char) : Option (Nat × List Char) :=
  ((Regex.word keyword).rest text).head?.bind leadingNumber

/-- `_LIMITS_RE.finditer`: the last value of `MAILMAX` and of `RCPTMAX`. The fuel is
the length of the text. -/
def scanLimits : Nat → List Char → Option Nat × Option Nat → Option Nat × Option Nat
  | 0, _, found => found
  | _, [], found => found
  | fuel + 1, c :: text, (mailmax, rcptmax) =>
      match keywordNumber "MAILMAX=" (c :: text) with
      | some (n, rest) => scanLimits fuel rest (some n, rcptmax)
      | none =>
          match keywordNumber "RCPTMAX=" (c :: text) with
          | some (n, rest) => scanLimits fuel rest (mailmax, some n)
          | none => scanLimits fuel text (mailmax, rcptmax)

/-- `^SIZE\s+(\d+)` at the head of a line. -/
def sizeHere (text : List Char) : Option Nat :=
  ((Regex.word "SIZE").rest text).head?.bind fun rest =>
    match rest with
    | c :: _ => if isSpace c then (leadingNumber (rest.dropWhile isSpace)).map Prod.fst else none
    | [] => none

/-- `_SIZE_RE.search`: the first line that says so. -/
def scanSize (atLineStart : Bool) : List Char → Option Nat
  | [] => none
  | c :: text =>
      match if atLineStart then sizeHere (c :: text) else none with
      | some n => some n
      | none => scanSize (c = '\n') text

/-- `ServerLimits.from_ehlo` -/
def ServerLimits.fromEhlo (banner : String) (fallback : ServerLimits) : ServerLimits :=
  let (mailmax, rcptmax) := scanLimits banner.length banner.toList (none, none)
  -- zero is taken for nothing
  { maxMessagesPerConnection :=
      if mailmax.getD 0 = 0 then fallback.maxMessagesPerConnection else mailmax.getD 0
    maxRecipients := if rcptmax.getD 0 = 0 then fallback.maxRecipients else rcptmax.getD 0
    maxSizeBytes := (scanSize true banner.toList).getD fallback.maxSizeBytes }

/-- A client object: the host it was opened to. -/
structure SmtpClient where
  host : String
  deriving DecidableEq

structure SmtpAdapter where
  username : String
  password : String
  fallback : ServerLimits
  client : Option SmtpClient := none
  sentOnConnection : Nat := 0
  limits? : Option ServerLimits := none
  deriving DecidableEq

/-- What may be raised while a connection is opened. -/
inductive ConnectFailure
  | response (code : Int) (message : String)
  | transport (description : String)

def ConnectFailure.outcome : ConnectFailure → WireOutcome
  | response code message => .responseException code message
  | transport description => .transportFailure description

/-- What becomes of a new connection: it fails before the server has answered EHLO,
or the login that follows is answered. -/
inductive Connecting
  | failed (failure : ConnectFailure)
  | greeted (banner : String) (login : Option ConnectFailure)

/-- What happens in one call of `send`. -/
structure Conversation where
  /-- `client.is_connected`, of the connection that is there. -/
  connected : Bool
  connecting : Connecting
  outcome : WireOutcome

namespace SmtpAdapter
variable (a : SmtpAdapter)

/-- `limits` -/
def limits : ServerLimits := a.limits?.getD a.fallback

/-- `close` -/
def close : SmtpAdapter :=
  match a.client with
  | some _ => { a with client := none, sentOnConnection := 0 }
  | none => a

/-- The connection that is there is used up or gone. -/
def worn (c : Conversation) : Bool :=
  a.client.isSome &&
    (decide (a.limits.maxMessagesPerConnection ≤ a.sentOnConnection) || !c.connected)

/-- `_connect`, which is given what the server does. -/
def connect (host : String) : Connecting → Option ConnectFailure × SmtpAdapter
  | .failed failure => (some failure, a)
  | .greeted banner login =>
      let greeted := { a with limits? := some (.fromEhlo banner a.fallback) }
      match login with
      | some failure => (some failure, greeted)
      | none => (none, { greeted with client := some ⟨host⟩, sentOnConnection := 0 })

/-- `_ensure_connection` -/
def ensureConnection (host : String) (c : Conversation) : Option ConnectFailure × SmtpAdapter :=
  let a := if a.worn c then a.close else a
  match a.client with
  | some _ => (none, a)
  | none => a.connect host c.connecting

/-- The user name and password of the login that a call performs, if it performs one. -/
def login? (c : Conversation) : Option (String × String) :=
  match c.connecting with
  | .greeted .. => if a.client.isNone || a.worn c then some (a.username, a.password) else none
  | .failed _ => none

/-- `send`, once the message has been built. Whatever is raised closes the connection. -/
def send (recipients : List String) (host : String) (c : Conversation) :
    DeliveryResult × SmtpAdapter :=
  match a.ensureConnection host c with
  | (some failure, a) => (smtpSend recipients failure.outcome, a.close)
  | (none, a) =>
      (smtpSend recipients c.outcome,
        match c.outcome with
        | .returned .. => { a with sentOnConnection := a.sentOnConnection + 1 }
        | _ => a.close)

@[simp] theorem close_password : a.close.password = a.password := by
  unfold close
  split <;> rfl

@[simp] theorem connect_password (host : String) (c : Connecting) :
    (a.connect host c).2.password = a.password := by
  unfold connect
  split
  · rfl
  · dsimp only
    split <;> rfl

@[simp] theorem ensureConnection_password (host : String) (c : Conversation) :
    (a.ensureConnection host c).2.password = a.password := by
  unfold ensureConnection
  dsimp only
  split
  · split <;> simp
  · rw [connect_password]
    split <;> simp

/-- The password of an adapter is the one it was made with. -/
@[simp] theorem send_password (recipients : List String) (host : String) (c : Conversation) :
    (a.send recipients host c).2.password = a.password := by
  have kept := a.ensureConnection_password host c
  unfold send
  split
  · rename_i failure opened same
    rw [same] at kept
    rw [close_password]
    exact kept
  · rename_i opened same
    rw [same] at kept
    dsimp only
    split
    · exact kept
    · rw [close_password]
      exact kept

theorem login?_eq_some {c : Conversation} {login : String × String}
    (h : a.login? c = some login) : login = (a.username, a.password) := by
  unfold login? at h
  split at h
  · split at h
    · exact (Option.some.inj h).symm
    · cases h
  · cases h

end SmtpAdapter
end Emaild
