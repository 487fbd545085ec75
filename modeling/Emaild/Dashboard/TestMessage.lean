import Mathlib.Data.List.TakeWhile
import Emaild.Acceptance.Limits
import Emaild.Dashboard.TestSend
import Emaild.Text.Replace

/-!
The test message that the dashboard sends. Who may send is decided on a value that comes
back from a form, and whatever stands in the form ends with a message or a refusal, unless
one of the libraries below raises an exception of its own.
-/
namespace Emaild
open Relational Text

/-- `SendOption.value` -/
def SendOption.value (o : SendOption) : String := s!"{o.keyId}|{o.sender}"

/-- `parse_option` -/
def parseOption (raw : String) : Except Raised (Nat × String) :=
  let (keyPart, sender) := partition '|' raw
  if isDigit keyPart = false ∨ sender = "" then
    .error (.sendRefused "Choose which address to send from.")
  else match intOfDigits? keyPart with
    | some keyId => .ok (keyId, sender)
    | none => .error (.builtin "ValueError")

/-- The largest value of an integer column. -/
def maxInteger : Nat := 2147483647

/-- `_principal_for`: the number of a key is sent to the database as an integer. -/
def Database.principalByNumber (db : Database) (keyId : Nat) : Except Raised Principal :=
  if maxInteger < keyId then .error .dataError else db.principalFor keyId

/-- `html.escape` -/
def htmlEscape (text : String) : String :=
  replaceEach [("&", "&amp;"), ("<", "&lt;"), (">", "&gt;"), ("\"", "&quot;"), ("'", "&#x27;")] text

/-- The time as `strftime` writes it. -/
structure Stamp where
  text : String
  length : text.length = 23

def version : String := "0.14.0-rc.1"

/-- The subject of `_content`. -/
def testSubject (stamp : Stamp) : String := s!"emaild test message — {stamp.text}"

/-- The plain text of `_content`. -/
def testText (sender baseUrl : String) (stamp : Stamp) : String :=
  "\n".intercalate [
    "This is a test message from your emaild installation.",
    "",
    s!"Sent from:  {sender}",
    s!"Sent at:    {stamp.text}",
    s!"Dashboard:  {baseUrl}",
    s!"Version:    {version}",
    "",
    "Receiving this confirms the whole path is working: DNS, the sender",
    "identity's SMTP credential, and delivery through MXRoute.",
    "",
    "Worth checking while you are here: open the message's original source",
    "(in Gmail, the three-dot menu, then 'Show original') and confirm SPF,",
    "DKIM and DMARC all say PASS. Mail that arrives with those failing will",
    "reach your inbox today and land in spam for other people tomorrow."]

/-- The HTML of `_content`. -/
def testHtml (sender baseUrl : String) (stamp : Stamp) : String :=
  let row (label value : String) :=
    "<tr><td style=\"padding-right:1rem;color:#666\">" ++ label ++ "</td>" ++
      "<td>" ++ htmlEscape value ++ "</td></tr>"
  let rows := row "Sent from" sender ++ row "Sent at" stamp.text ++ row "Dashboard" baseUrl ++
    row "Version" version
  "<div style=\"font-family:system-ui,-apple-system,Segoe UI,sans-serif;" ++
    "font-size:15px;line-height:1.6;color:#111\">" ++
    "<p>This is a test message from your emaild installation.</p>" ++
    "<table cellpadding=\"0\" cellspacing=\"0\" style=\"font-size:14px;margin:1rem 0\">" ++
    rows ++
    "</table>" ++
    "<p>Receiving this confirms the whole path is working: DNS, the sender " ++
    "identity's SMTP credential, and delivery through MXRoute.</p>" ++
    "<p>Worth checking while you are here: open this message's original " ++
    "source (in Gmail, the three-dot menu, then <em>Show original</em>) and " ++
    "confirm SPF, DKIM and DMARC all say PASS. Mail that arrives with those " ++
    "failing will reach your inbox today and land in spam for other people " ++
    "tomorrow.</p>" ++
    "</div>"

/-- What the validation of a request takes for white space at the ends of a text. -/
def isBlank (c : Char) : Bool := isSpace c && !(0x1c ≤ c.toNat && c.toNat ≤ 0x1f)

def trim (text : String) : String :=
  .ofList ((text.toList.dropWhile isBlank).reverse.dropWhile isBlank).reverse

/-- `SendEmailRequest.model_validate`, for one recipient, a subject and both bodies. -/
def validateTest (sender recipient subject html text : String) : Except Raised SendEmailRequest :=
  if valid : 3 ≤ (trim sender).length ∧ (trim subject).length ≤ 998 ∧
      (trim html ≠ "" ∨ trim text ≠ "") then .ok {
    «from» := trim sender, «to» := [trim recipient], subject := some (trim subject)
    html := some (trim html), text := some (trim text)
    fromLength := valid.1, subjectLength := valid.2.1, hasBody := valid.2.2
    hasRecipient := List.cons_ne_nil _ _ }
  else .error (.builtin "ValidationError")

/-- A text that the database has no room for. -/
def hasNul (text : String) : Bool := text.toList.contains '\x00'

/-- The look-up of the recipients among the suppressed addresses, once the steps before it
have passed. -/
def lookUpRecipients (rt : Runtime) (principal : Principal) (request : SendEmailRequest) :
    Except Raised PUnit := do
  let _ ← authorizeSender rt principal request.from
  let toList ← normaliseRecipients rt request.to "to"
  checkLimits rt request toList.length
  if (← normalisable rt toList).any hasNul then .error .dataError else .ok ⟨⟩

/-- The texts of the row that come with the request. -/
def rowTexts (rt : Runtime) (request : SendEmailRequest) : List String :=
  [strip (rt.parseaddr request.from).1, orEmpty request.subject, orEmpty request.html,
    orEmpty request.text]

/-- What is submitted, and what a run draws. -/
structure TestPost where
  option : String
  recipient : String
  baseUrl : String
  stamp : Stamp
  draw : IngestDraw
  now : Time

/-- The request that is made of a form. -/
def TestPost.request (post : TestPost) (sender : String) : Except Raised SendEmailRequest :=
  validateTest sender (strip post.recipient) (testSubject post.stamp)
    (testHtml sender post.baseUrl post.stamp) (testText sender post.baseUrl post.stamp)

section Send
variable (rt : Runtime) (hash : List (String × PayloadValue) → String) (idempotencyTtlHours : Nat)

/-- `ingest_message` without a key, on a database that takes no text with NUL. -/
def ingestTest (principal : Principal) (request : SendEmailRequest) (draw : IngestDraw)
    (now : Time) : Tx Database Raised IngestResult := do
  Tx.lift (lookUpRecipients rt principal request)
  let result ← ingestMessage rt hash idempotencyTtlHours principal request none draw now
  if (rowTexts rt request).any hasNul then throw .dataError else return result

/-- `send_test_message` -/
def sendTestMessage (post : TestPost) : Tx Database Raised String := do
  let (keyId, sender) ← Tx.lift (parseOption post.option)
  let recipient := strip post.recipient
  if recipient = "" then throw (.sendRefused "Enter an address to send the test to.")
  else
    let principal ← Tx.lift ((← Tx.look).working.principalByNumber keyId)
    let request ← Tx.lift (post.request sender)
    match ← Tx.attempt (ingestTest rt hash idempotencyTtlHours principal request post.draw
      post.now) with
    | .ok result => return result.publicId
    | .error (.api exc) => throw (.sendRefused exc.message)
    | .error exc => throw exc

/-! The steps, one after the other. -/

/-- What the dashboard makes of the end of `ingest_message`. -/
def reworded {α : Type} : Except Raised IngestResult × α → Except Raised String × α
  | (.ok result, s) => (.ok result.publicId, s)
  | (.error (.api exc), s) => (.error (.sendRefused exc.message), s)
  | (.error e, s) => (.error e, s)

theorem exec_sendTestMessage (post : TestPost) (db : Database) :
    (sendTestMessage rt hash idempotencyTtlHours post).exec (.begin db) =
      match parseOption post.option with
      | .error e => (.error e, .begin db)
      | .ok (keyId, sender) =>
          if strip post.recipient = "" then
            (.error (.sendRefused "Enter an address to send the test to."), .begin db)
          else match db.principalByNumber keyId with
            | .error e => (.error e, .begin db)
            | .ok principal =>
                match post.request sender with
                | .error e => (.error e, .begin db)
                | .ok request => reworded ((ingestTest rt hash idempotencyTtlHours principal request
                    post.draw post.now).exec (.begin db)) := by
  unfold sendTestMessage
  rw [Tx.exec_bind, Tx.exec_lift]
  cases parseOption post.option with
  | error e => rfl
  | ok parts =>
      obtain ⟨keyId, sender⟩ := parts
      dsimp only
      split
      · rfl
      · rw [Tx.exec_bind_ok (Tx.exec_look _), Tx.exec_bind, Tx.exec_lift]
        dsimp only [Session.begin]
        cases db.principalByNumber keyId with
        | error e => rfl
        | ok principal =>
            dsimp only
            rw [Tx.exec_bind, Tx.exec_lift]
            cases post.request sender with
            | error e => rfl
            | ok request =>
                dsimp only
                rw [Tx.exec_bind, Tx.exec_attempt]
                generalize (ingestTest rt hash idempotencyTtlHours principal request post.draw
                  post.now).exec ⟨db, db, false⟩ = run
                obtain ⟨e | result, s⟩ := run
                · cases e <;> rfl
                · rfl

theorem exec_ingestMessage_keyless (principal : Principal) (request : SendEmailRequest)
    (draw : IngestDraw) (now : Time) (s : Session Database) :
    (ingestMessage rt hash idempotencyTtlHours principal request none draw now).exec s =
      match checkRequest rt s.working principal request with
      | .error e => (.error e, s)
      | .ok (displayName, identity, toList, ccList, bccList) =>
          let m := newMessage principal request identity displayName toList ccList bccList draw now
          match storeMessage s.working principal m with
          | .error e => (.error e, s)
          | .ok stored => (.ok ⟨m.publicId, MessageStatus.queued.value, false⟩,
              { s with working := stored }) := by
  unfold ingestMessage
  rw [Tx.exec_bind_ok (Tx.exec_look _), Tx.exec_bind, Tx.exec_lift]
  cases checkRequest rt s.working principal request with
  | error e => rfl
  | ok parts =>
      obtain ⟨displayName, identity, toList, ccList, bccList⟩ := parts
      dsimp only
      rw [Tx.exec_bind, Tx.exec_lift]
      dsimp only [Option.filter, Option.elim]
      rw [Tx.exec_bind, Tx.exec_lift]
      cases storeMessage s.working principal (newMessage principal request identity displayName
        toList ccList bccList draw now) with
      | error e => rfl
      | ok stored => rfl

end Send

/-! What each step may raise. -/

/-- The exception is one that the interface answers with. -/
def Raised.IsApi (e : Raised) : Prop := ∃ error, e = .api error

section Raises
variable {rt : Runtime} {db : Database} {principal : Principal}

theorem recursionError_not_api : ¬ recursionError.IsApi := by
  rintro ⟨error, same⟩
  cases same

/-- A sender is refused, or nests too deeply. -/
theorem authorizeSender_error {sender : String} {e : Raised}
    (failed : authorizeSender rt principal sender = .error e) :
    (rt.overflows sender = true ∧ e = recursionError) ∨
      (rt.overflows sender = false ∧ e.IsApi) := by
  unfold authorizeSender parseFromAddress at failed
  dsimp only at failed
  cases deep : rt.overflows sender with
  | true =>
      rw [deep] at failed
      exact .inl ⟨rfl, (Except.error.inj failed).symm⟩
  | false =>
      rw [deep, if_neg Bool.false_ne_true] at failed
      refine .inr ⟨rfl, ?_⟩
      split at failed
      · rename_i unparsed
        split at unparsed
        · cases unparsed
        · cases unparsed
          cases failed
          exact ⟨_, rfl⟩
      · split at failed
        · cases failed
          exact ⟨_, rfl⟩
        · split at failed
          · cases failed
            exact ⟨_, rfl⟩
          · split at failed
            · cases failed
            · cases failed
              exact ⟨_, rfl⟩

theorem authorizeSender_shallow {sender : String} {r : Option String × SenderIdentity}
    (authorized : authorizeSender rt principal sender = .ok r) : rt.overflows sender = false := by
  obtain ⟨displayName, identity⟩ := r
  unfold authorizeSender at authorized
  split at authorized
  · cases authorized
  · rename_i parsed
    exact (parseFromAddress_eq_ok.mp parsed).1

variable (rt) in
/-- The first of the values that is no address in form nests too deeply. -/
def DeepFirst : List String → Prop
  | [] => False
  | raw :: values =>
      rt.overflows raw = true ∨ (WellShaped (rt.canonical raw) ∧ DeepFirst values)

variable (rt) in
/-- A list of recipients is normalised, or ends at the first value that is refused or that
nests too deeply. -/
theorem normaliseRecipients_cases (values : List String) (field : String) :
    (∃ result, normaliseRecipients rt values field = .ok result ∧ ¬ DeepFirst rt values) ∨
      (normaliseRecipients rt values field = .error recursionError ∧ DeepFirst rt values) ∨
      ∃ e, normaliseRecipients rt values field = .error e ∧ e.IsApi ∧ ¬ DeepFirst rt values := by
  unfold normaliseRecipients
  generalize ([] : List String) = out
  induction values generalizing out with
  | nil => exact .inl ⟨out, rfl, id⟩
  | cons raw values ih =>
      dsimp only [normaliseRecipientsFrom, DeepFirst]
      cases deep : rt.overflows raw with
      | true => exact .inr (.inl ⟨rfl, .inl rfl⟩)
      | false =>
          rw [if_neg Bool.false_ne_true, or_iff_right Bool.false_ne_true]
          by_cases shape : WellShaped (rt.canonical raw)
          · rw [if_pos shape, and_iff_right shape]
            exact ih _
          · rw [if_neg shape]
            exact .inr (.inr ⟨_, rfl, ⟨_, rfl⟩, fun h => shape h.1⟩)

theorem checkLimits_raises {request : SendEmailRequest} (noReply : request.replyTo = none)
    (total : Nat) : OnlyRaises Raised.IsApi (checkLimits rt request total) := by
  unfold checkLimits
  split
  · exact .error ⟨_, rfl⟩
  split
  · exact .error ⟨_, rfl⟩
  split
  · exact .error ⟨_, rfl⟩
  rw [noReply]
  exact .ok _

/-- The recipients are let through or refused, unless one of them nests too deeply. -/
theorem checkSuppressions_error {recipients : List String} {e : Raised}
    (failed : checkSuppressions rt db recipients = .error e) :
    e.IsApi ∨ e = recursionError ∧ ∃ a ∈ recipients, rt.overflows a = true := by
  unfold checkSuppressions at failed
  cases found : findSuppressed rt db recipients with
  | error e' =>
      rw [found] at failed
      cases failed
      unfold findSuppressed at found
      cases read : normalisable rt recipients with
      | error e' =>
          rw [read] at found
          cases found
          exact .inr (normalisable_error read)
      | ok normalised =>
          rw [read] at found
          cases found
  | ok rows =>
      rw [found] at failed
      dsimp only at failed
      split at failed
      · cases failed
      · cases failed
        exact .inl ⟨_, rfl⟩

theorem checkRequest_raises {request : SendEmailRequest} (noReply : request.replyTo = none) :
    OnlyRaises (fun e => e.IsApi ∨ e = recursionError) (checkRequest rt db principal request) := by
  have normalises (values : List String) (field : String) :
      OnlyRaises (fun e => e.IsApi ∨ e = recursionError) (normaliseRecipients rt values field) := by
    refine ⟨fun e failed => ?_⟩
    rcases normaliseRecipients_cases rt values field with
      ⟨_, normal, _⟩ | ⟨deep, _⟩ | ⟨_, refused, api, _⟩
    · cases failed.symm.trans normal
    · exact .inr (Except.error.inj (failed.symm.trans deep))
    · exact .inl (Except.error.inj (failed.symm.trans refused) ▸ api)
  refine .bind ⟨fun e failed => ?_⟩ fun _ => .bind (normalises _ _) fun _ =>
    .bind (normalises _ _) fun _ => .bind (normalises _ _) fun _ =>
      .bind ⟨fun e failed => .inl ((checkLimits_raises noReply _).raises e failed)⟩ fun _ =>
        .bind ⟨fun e failed => ?_⟩ fun _ => .pure _
  · exact (authorizeSender_error failed).symm.imp And.right And.right
  · exact (checkSuppressions_error failed).imp_right And.left

theorem storeMessage_error {m : Message} {e : Raised}
    (failed : storeMessage db principal m = .error e) : ¬ e.IsApi :=
  (storeMessage_raises db principal (P := fun e => ¬ e.IsApi) (by simp [Raised.IsApi])
    (by simp [Raised.IsApi]) (by simp [Raised.IsApi])).raises e failed

/-- A key that is not in use is refused in so many words. -/
theorem principalFor_raises (constrained : db.Constrained) (keyId : Nat) :
    OnlyRaises (fun e => ∃ message, e = .sendRefused message) (db.principalFor keyId) := by
  unfold Database.principalFor
  split
  · exact .error ⟨_, rfl⟩
  · rename_i key found
    split
    · exact .error ⟨_, rfl⟩
    · obtain ⟨project, owner⟩ := constrained.projects key (Table.mem_of_find? found)
      rw [owner]
      dsimp only
      split
      · exact .error ⟨_, rfl⟩
      · exact .ok _

end Raises

/-! When the row of a message is written. -/

/-- What a new message is promised by the sequence of row numbers and the generator of
identifiers, and what the columns of keys and mailboxes hold. -/
structure Database.Admitting (db : Database) (draw : IngestDraw) : Prop where
  fresh : db.messages.find? draw.messageId = none
  unannounced : ∀ e ∈ db.events, e.messageId ≠ draw.messageId
  unnamed : ∀ m ∈ db.messages, m.publicId ≠ "email_" ++ draw.ulid
  ulid : draw.ulid.length = 26
  addresses : ∀ m ∈ db.mailboxes, m.address.length ≤ 320 ∧ '@' ∈ m.address.toList
  numbers : ∀ key ∈ db.apiKeys, key.id ≤ maxInteger

section Write
variable {db : Database}

theorem insertEvent_of_free {e : Event} (free : ∀ e' ∈ db.events, e'.position ≠ e.position) :
    ∃ after, db.insertEvent e = .ok after ∧ ∀ e', e' ∈ after.events ↔ e' ∈ db.events ∨ e' = e := by
  have free := Table.find?_eq_none.mpr free
  refine ⟨{ db with events := db.events.insert e free }, ?_, Table.mem_insert_iff db.events e free⟩
  rw [Database.insertEvent, Table.insert?, dif_pos free]

theorem insertMessage_of_admitted {m : Message} (fits : m.fits = true) (admits : db.admits m = true)
    (free : db.messages.find? m.id = none) :
    db.insertMessage m = .ok { db with messages := db.messages.insert m free } := by
  rw [Database.insertMessage, Table.insert?, dif_pos free]
  simp [fits, admits]

/-- A row that fits is written. -/
theorem storeMessage_of_admitted {principal : Principal} {m : Message} (fits : m.fits = true)
    (admits : db.admits m = true) (free : db.messages.find? m.id = none)
    (unannounced : ∀ e ∈ db.events, e.messageId ≠ m.id) (named : '@' ∈ m.fromAddress.toList) :
    ∃ after, storeMessage db principal m = .ok after := by
  obtain ⟨first, accepted, listed⟩ := @insertEvent_of_free
    { db with messages := db.messages.insert m free }
    ⟨m.id, 1, "api.accepted",
      .accepted principal.projectName principal.keyName m.recipientCount m.sizeBytes⟩
    fun e mem same => unannounced e mem (Prod.mk.inj same).1
  have second (detail : EventDetail) : ∀ e ∈ first.events,
      e.position ≠ (⟨m.id, 2, "message.queued", detail⟩ : Event).position := by
    intro e mem same
    rcases (listed e).mp mem with old | rfl
    · exact unannounced e old (Prod.mk.inj same).1
    · have order : 1 = 2 := (Prod.mk.inj same).2
      cases order
  simp only [storeMessage, afterFirst, if_pos named, Option.elim, bind, Except.bind,
    insertMessage_of_admitted fits admits free, accepted]
  obtain ⟨after, queued, _⟩ := insertEvent_of_free (second _)
  exact ⟨after, queued⟩

variable {rt : Runtime} {key : ApiKey} {project : Project} {request : SendEmailRequest}
  {displayName : Option String} {identity : SenderIdentity} {toList : List String}

/-- The row of a vetted request is written exactly if the display name is short enough. -/
theorem storeMessage_iff {draw : IngestDraw} (admitting : db.Admitting draw) (now : Time)
    (mem : key ∈ db.apiKeys) (inUse : db.InUse key project) (noReply : request.replyTo = none)
    (vetted : Vetted rt db (db.principalOf key project) request displayName identity toList [] []) :
    (∃ after, storeMessage db (db.principalOf key project) (newMessage (db.principalOf key project)
      request identity displayName toList [] [] draw now) = .ok after) ↔
        (strip (rt.parseaddr request.from).1).length ≤ 200 := by
  obtain ⟨⟨address, known⟩, _⟩ := authorizeSender_ok vetted.authorized
  have stored : identity.mailbox ∈ db.mailboxes := (scopedMailboxes_sound known).1
  obtain ⟨column, named⟩ := admitting.addresses _ stored
  have fits := @fits_newMessage (db.principalOf key project) request draw now displayName identity
    toList [] [] column admitting.ulid
  rw [displayName_of_authorizeSender vetted.authorized, noReply] at fits
  have short : (newMessage (db.principalOf key project) request identity displayName toList [] []
      draw now).fits = true ↔ (strip (rt.parseaddr request.from).1).length ≤ 200 :=
    fits.trans (and_iff_left (by decide))
  rw [← short]
  constructor
  · rintro ⟨after, written⟩
    by_contra long
    obtain ⟨_, _, written⟩ := ok_of_bind_ok written
    obtain ⟨_, inserted, _⟩ := ok_of_bind_ok written
    rw [Database.insertMessage, if_pos (by simpa using long)] at inserted
    cases inserted
  · intro fits
    refine storeMessage_of_admitted fits ?_ admitting.fresh admitting.unannounced named
    have projectKnown : db.projects.find? project.id = some project :=
      Table.find?_of_mem (Table.mem_of_find? inUse.owner)
    simp only [Database.admits, newMessage, Database.principalOf, Bool.and_eq_true, projectKnown,
      Table.find?_of_mem stored, Table.find?_of_mem mem, Option.isSome_some, Option.all_some,
      List.all_eq_true, true_and]
    exact fun other listed => decide_eq_true (admitting.unnamed other listed)

end Write

/-! What makes an exception of a library escape. -/

/-- Acceptance meets an address that nests too deeply, or a text that the database refuses. -/
inductive IngestFault (rt : Runtime) (db : Database) (principal : Principal)
    (request : SendEmailRequest) : Prop
  | sender (deep : rt.overflows request.from = true)
  | recipient {sender : Option String × SenderIdentity}
      (authorized : authorizeSender rt principal request.from = .ok sender)
      (deep : DeepFirst rt request.to)
  | address {sender : Option String × SenderIdentity} {toList : List String} {a : String}
      (authorized : authorizeSender rt principal request.from = .ok sender)
      (normal : normaliseRecipients rt request.to "to" = .ok toList)
      (limits : checkLimits rt request toList.length = .ok ()) (mem : a ∈ toList)
      (unreadable : rt.overflows a = true ∨
        ∃ n, normaliseAddress rt a = .ok n ∧ hasNul n = true)
  | row {displayName : Option String} {identity : SenderIdentity} {toList : List String}
      (vetted : Vetted rt db principal request displayName identity toList [] [])
      (unfit : 200 < (strip (rt.parseaddr request.from).1).length ∨
        (rowTexts rt request).any hasNul = true)

/-- How a run ends that the dashboard has an answer to. -/
def Settles {α : Type} (publicId : α → String) (refusal : Raised → Prop) (db : Database) :
    Except Raised α × Session Database → Prop
  | (.ok a, s) => ∃ m opening, Grows m opening [] db s.working ∧ m.publicId = publicId a
  | (.error e, s) => refusal e ∧ s = .begin db

theorem not_settles {α : Type} {publicId : α → String} {refusal : Raised → Prop} {db : Database}
    {e : Raised} {s : Session Database} (foreign : ¬ refusal e) :
    ¬ Settles publicId refusal db (.error e, s) := fun settles => foreign settles.1

section Ends
variable {rt : Runtime} {db : Database}

theorem exec_ingestTest (hash : List (String × PayloadValue) → String) (ttl : Nat)
    (principal : Principal) (request : SendEmailRequest) (draw : IngestDraw) (now : Time) :
    (ingestTest rt hash ttl principal request draw now).exec (.begin db) =
      match lookUpRecipients rt principal request with
      | .error e => (.error e, .begin db)
      | .ok () =>
          match checkRequest rt db principal request with
          | .error e => (.error e, .begin db)
          | .ok (displayName, identity, toList, ccList, bccList) =>
              let m :=
                newMessage principal request identity displayName toList ccList bccList draw now
              match storeMessage db principal m with
              | .error e => (.error e, .begin db)
              | .ok stored =>
                  if (rowTexts rt request).any hasNul then (.error .dataError, ⟨db, stored, false⟩)
                  else (.ok ⟨m.publicId, MessageStatus.queued.value, false⟩,
                    ⟨db, stored, false⟩) := by
  unfold ingestTest
  rw [Tx.exec_bind, Tx.exec_lift]
  cases lookUpRecipients rt principal request with
  | error e => rfl
  | ok _ =>
      dsimp only
      rw [Tx.exec_bind, exec_ingestMessage_keyless]
      dsimp only [Session.begin]
      cases checkRequest rt db principal request with
      | error e => rfl
      | ok parts =>
          obtain ⟨displayName, identity, toList, ccList, bccList⟩ := parts
          dsimp only
          cases storeMessage db principal (newMessage principal request identity displayName toList
            ccList bccList draw now) with
          | error e => rfl
          | ok stored =>
              dsimp only
              split <;> rfl

/-- The look-up ends with an answer of the interface, with what is at fault, or well. -/
inductive LookUpEnds (rt : Runtime) (db : Database) (principal : Principal)
    (request : SendEmailRequest) : Except Raised PUnit → Prop
  | refused {e : Raised} (api : e.IsApi) (faultless : ¬ IngestFault rt db principal request) :
      LookUpEnds rt db principal request (.error e)
  | failed {e : Raised} (other : e = recursionError ∨ e = .dataError)
      (fault : IngestFault rt db principal request) : LookUpEnds rt db principal request (.error e)
  | passed {sender : Option String × SenderIdentity} {toList : List String}
      (authorized : authorizeSender rt principal request.from = .ok sender)
      (normal : normaliseRecipients rt request.to "to" = .ok toList)
      (limits : checkLimits rt request toList.length = .ok ())
      (readable : ∀ a ∈ toList, rt.overflows a = false ∧
        ∀ n, normaliseAddress rt a = .ok n → hasNul n = false) :
      LookUpEnds rt db principal request (.ok ())

theorem lookUpRecipients_ends (rt : Runtime) (db : Database) (principal : Principal)
    {request : SendEmailRequest} (noReply : request.replyTo = none) :
    LookUpEnds rt db principal request (lookUpRecipients rt principal request) := by
  unfold lookUpRecipients
  cases authorized : authorizeSender rt principal request.from with
  | error e =>
      rcases authorizeSender_error authorized with ⟨deep, rfl⟩ | ⟨shallow, api⟩
      · exact .failed (.inl rfl) (.sender deep)
      · refine .refused api fun fault => ?_
        cases fault with
        | sender deep => cases deep.symm.trans shallow
        | recipient authorized' => cases authorized.symm.trans authorized'
        | address authorized' => cases authorized.symm.trans authorized'
        | row vetted => cases authorized.symm.trans vetted.authorized
  | ok sender =>
  have shallow := authorizeSender_shallow authorized
  rcases normaliseRecipients_cases rt request.to "to" with
    ⟨toList, normal, notDeep⟩ | ⟨normal, deep⟩ | ⟨e, normal, api, notDeep⟩
  · cases limits : (checkLimits rt request toList.length : Except Raised Unit) with
    | error e =>
        simp only [normal, limits, bind, Except.bind]
        refine .refused ((checkLimits_raises noReply _).raises e limits) fun fault => ?_
        cases fault with
        | sender deep => cases deep.symm.trans shallow
        | recipient _ deep => exact notDeep deep
        | address _ normal' limits' =>
            obtain rfl := Except.ok.inj (normal.symm.trans normal')
            cases limits.symm.trans limits'
        | row vetted =>
            obtain rfl := Except.ok.inj (normal.symm.trans vetted.toNormal)
            cases limits.symm.trans vetted.limits
    | ok u =>
        cases read : normalisable rt toList with
        | error e =>
            obtain ⟨rfl, a, mem, deep⟩ := normalisable_error read
            simp only [normal, limits, read, bind, Except.bind]
            exact .failed (.inl rfl) (.address authorized normal limits mem (.inl deep))
        | ok normalised =>
            obtain ⟨all, same⟩ := normalisable_eq_ok.mp read
            simp only [normal, limits, read, bind, Except.bind]
            cases nul : normalised.any hasNul with
            | true =>
                obtain ⟨n, there, hasNul⟩ := List.any_eq_true.mp nul
                obtain ⟨a, mem, spelled⟩ := mem_normalForms.mp (same ▸ there)
                exact .failed (.inr rfl) (.address authorized normal limits mem
                  (.inr ⟨n, spelled, hasNul⟩))
            | false =>
                refine .passed authorized normal limits fun a mem =>
                  ⟨all a mem, fun n spelled => ?_⟩
                refine Bool.eq_false_iff.mpr (List.any_eq_false.mp nul n ?_)
                exact same ▸ mem_normalForms.mpr ⟨a, mem, spelled⟩
  · simp only [normal, bind, Except.bind]
    exact .failed (.inl rfl) (.recipient authorized deep)
  · simp only [normal, bind, Except.bind]
    refine .refused api fun fault => ?_
    cases fault with
    | sender deep => cases deep.symm.trans shallow
    | recipient _ deep => exact notDeep deep
    | address _ normal' => cases normal.symm.trans normal'
    | row vetted => cases normal.symm.trans vetted.toNormal

section Passed
variable {principal : Principal} {request : SendEmailRequest}
  {sender : Option String × SenderIdentity} {toList : List String}
  (authorized : authorizeSender rt principal request.from = .ok sender)
  (normal : normaliseRecipients rt request.to "to" = .ok toList)
  (readable : ∀ a ∈ toList, rt.overflows a = false ∧
    ∀ n, normaliseAddress rt a = .ok n → hasNul n = false)
include authorized normal readable

/-- Behind a look-up that ends well only the row can be at fault. -/
theorem faultless_of_row (row : ∀ {displayName identity toList},
      Vetted rt db principal request displayName identity toList [] [] →
        ¬ (200 < (strip (rt.parseaddr request.from).1).length ∨
          (rowTexts rt request).any hasNul = true)) :
    ¬ IngestFault rt db principal request := by
  intro fault
  cases fault with
  | sender deep => cases deep.symm.trans (authorizeSender_shallow authorized)
  | recipient _ deep =>
      rcases normaliseRecipients_cases rt request.to "to" with
        ⟨_, _, notDeep⟩ | ⟨failed, _⟩ | ⟨_, _, _, notDeep⟩
      · exact notDeep deep
      · cases normal.symm.trans failed
      · exact notDeep deep
  | address _ normal' _ mem unreadable =>
      obtain rfl := Except.ok.inj (normal.symm.trans normal')
      obtain ⟨shallow, legible⟩ := readable _ mem
      rcases unreadable with deep | ⟨n, spelled, nul⟩
      · cases deep.symm.trans shallow
      · cases nul.symm.trans (legible n spelled)
  | row vetted unfit => exact row vetted unfit

/-- What is left of the checks is the suppression list. -/
theorem isApi_of_checkRequest {e : Raised} (bare : request.cc = none ∧ request.bcc = none)
    (limits : checkLimits rt request toList.length = .ok ())
    (checks : checkRequest rt db principal request = .error e) : e.IsApi := by
  have suppressed : checkSuppressions rt db toList = .error e := by
    simp only [checkRequest, authorized, bare.1, bare.2, Option.getD_none, bind, Except.bind,
      normaliseRecipients, normaliseRecipientsFrom, List.length_nil, Nat.add_zero,
      List.append_nil] at checks
    rw [normaliseRecipients] at normal
    cases listed : (checkSuppressions rt db toList : Except Raised Unit) with
    | error e' =>
        simp only [normal, limits, listed] at checks
        exact congrArg Except.error (Except.error.inj checks)
    | ok u =>
        simp only [normal, limits, listed, pure, Except.pure, reduceCtorEq] at checks
  rcases checkSuppressions_error suppressed with api | ⟨_, a, mem, deep⟩
  · exact api
  · cases deep.symm.trans (readable a mem).1

end Passed

/-- Without copies the lists of copies are empty. -/
theorem Vetted.no_copies {principal : Principal} {request : SendEmailRequest}
    {displayName : Option String} {identity : SenderIdentity} {toList ccList bccList : List String}
    (vetted : Vetted rt db principal request displayName identity toList ccList bccList)
    (bare : request.cc = none ∧ request.bcc = none) : ccList = [] ∧ bccList = [] := by
  have cc := vetted.ccNormal
  have bcc := vetted.bccNormal
  rw [bare.1] at cc
  rw [bare.2] at bcc
  exact ⟨(Except.ok.inj cc).symm, (Except.ok.inj bcc).symm⟩

theorem ingestTest_settles_iff {hash : List (String × PayloadValue) → String} {ttl : Nat}
    {draw : IngestDraw} {now : Time} (admitting : db.Admitting draw) {key : ApiKey}
    {project : Project} {request : SendEmailRequest} (mem : key ∈ db.apiKeys)
    (inUse : db.InUse key project) (bare : request.cc = none ∧ request.bcc = none)
    (noReply : request.replyTo = none) :
    Settles IngestResult.publicId Raised.IsApi db
        ((ingestTest rt hash ttl (db.principalOf key project) request draw now).exec (.begin db)) ↔
      ¬ IngestFault rt db (db.principalOf key project) request := by
  rw [exec_ingestTest]
  have ends := lookUpRecipients_ends rt db (db.principalOf key project) noReply
  generalize lookUpRecipients rt (db.principalOf key project) request = look at ends
  cases ends with
  | refused api faultless => exact iff_of_true ⟨api, rfl⟩ faultless
  | failed other fault =>
      refine iff_of_false (not_settles ?_) (not_not.mpr fault)
      rcases other with rfl | rfl
      · exact recursionError_not_api
      · simp [Raised.IsApi]
  | @passed sender toList authorized normal limits readable =>
    cases checks : checkRequest rt db (db.principalOf key project) request with
    | error e =>
        have api := isApi_of_checkRequest authorized normal readable bare limits checks
        refine iff_of_true ⟨api, rfl⟩
          (faultless_of_row authorized normal readable fun vetted => ?_)
        cases checks.symm.trans (checkRequest_eq_ok.mpr vetted)
    | ok parts =>
        obtain ⟨displayName, identity, toList, ccList, bccList⟩ := parts
        have vetted := checkRequest_eq_ok.mp checks
        obtain ⟨rfl, rfl⟩ := vetted.no_copies bare
        have short := storeMessage_iff admitting now mem inUse noReply vetted
        dsimp only
        cases written : storeMessage db (db.principalOf key project) (newMessage
          (db.principalOf key project) request identity displayName toList [] [] draw now) with
        | error e =>
            rw [written] at short
            have long := (not_congr short).mp (by simp)
            exact iff_of_false (not_settles (storeMessage_error written))
              (not_not.mpr (.row vetted (.inl (not_le.mp long))))
        | ok stored =>
            cases texts : (rowTexts rt request).any hasNul with
            | true =>
                exact iff_of_false (not_settles (by simp [Raised.IsApi]))
                  (not_not.mpr (.row vetted (.inr texts)))
            | false =>
                obtain ⟨_, _, grows⟩ := storeMessage_ok written
                refine iff_of_true ⟨_, _, grows, rfl⟩
                  (faultless_of_row authorized normal readable fun _ => ?_)
                rintro (long | nul')
                · exact absurd (short.mp ⟨stored, written⟩) (not_le.mpr long)
                · rw [texts] at nul'
                  cases nul'

/-- Acceptance knows nothing of the refusals of the dashboard. -/
theorem ingestTest_never_refuses (hash : List (String × PayloadValue) → String) (ttl : Nat)
    (principal : Principal) {request : SendEmailRequest} (noReply : request.replyTo = none)
    (draw : IngestDraw) (now : Time) (message : String) (s : Session Database) :
    (ingestTest rt hash ttl principal request draw now).exec (.begin db) ≠
      (.error (.sendRefused message), s) := by
  have notApi : ¬ (Raised.sendRefused message).IsApi := by simp [Raised.IsApi]
  rw [exec_ingestTest]
  have ends := lookUpRecipients_ends rt db principal noReply
  generalize lookUpRecipients rt principal request = look at ends
  cases ends with
  | refused api =>
      intro same
      cases same
      exact notApi api
  | failed other =>
      intro same
      cases same
      rcases other with same | same <;> cases same
  | passed =>
    dsimp only
    cases checks : checkRequest rt db principal request with
    | error e =>
        intro same
        cases same
        exact (checkRequest_raises noReply).raises _ checks |>.elim notApi fun same => by cases same
    | ok parts =>
        obtain ⟨displayName, identity, toList, ccList, bccList⟩ := parts
        dsimp only
        cases written : storeMessage db principal (newMessage principal request identity displayName
          toList ccList bccList draw now) with
        | error e =>
            intro same
            cases same
            exact (storeMessage_raises db principal (P := fun e => e ≠ .sendRefused message)
              (by simp) (by simp) (by simp)).raises _ written rfl
        | ok stored =>
            dsimp only
            split <;> exact fun same => by cases same

end Ends

/-- The key part counts as digits, and is not read as a number. -/
def Unread (option : String) : Prop :=
  let (keyPart, sender) := partition '|' option
  isDigit keyPart = true ∧ sender ≠ "" ∧
    ((∃ c ∈ keyPart.toList, digit? c = none) ∨ 4300 < keyPart.toList.length)

/-- What a form may hold, and the rows, that the dashboard has no answer to: a number that is
not read or that no column holds, a sender of less than three characters, a text that the
database refuses. -/
inductive TestFault (rt : Runtime) (db : Database) (post : TestPost) : Prop
  | unread (unread : Unread post.option)
  | large {keyId : Nat} {sender : String} (parsed : parseOption post.option = .ok (keyId, sender))
      (named : strip post.recipient ≠ "") (large : maxInteger < keyId)
  | short {keyId : Nat} {sender : String} {principal : Principal}
      (parsed : parseOption post.option = .ok (keyId, sender)) (named : strip post.recipient ≠ "")
      (known : db.principalByNumber keyId = .ok principal) (short : (trim sender).length < 3)
  | ingest {keyId : Nat} {sender : String} {principal : Principal} {request : SendEmailRequest}
      (parsed : parseOption post.option = .ok (keyId, sender)) (named : strip post.recipient ≠ "")
      (known : db.principalByNumber keyId = .ok principal)
      (valid : post.request sender = .ok request)
      (fault : IngestFault rt db principal request)

section Options

theorem parseOption_unread {option : String} :
    parseOption option = .error (.builtin "ValueError") ↔ Unread option := by
  simp only [parseOption, Unread]
  generalize partition '|' option = parts
  obtain ⟨keyPart, sender⟩ := parts
  dsimp only
  by_cases refused : isDigit keyPart = false ∨ sender = ""
  · rw [if_pos refused]
    refine iff_of_false (fun same => by cases same) ?_
    rintro ⟨digits, given, _⟩
    rcases refused with undigits | missing
    · rw [undigits] at digits
      cases digits
    · exact given missing
  · rw [if_neg refused]
    push Not at refused
    have digits : isDigit keyPart = true := by simpa using refused.1
    rw [and_iff_right digits, and_iff_right refused.2, intOfDigits?]
    split
    · rename_i keyId read
      split at read
      · rename_i readable
        refine iff_of_false (fun same => by cases same) ?_
        rintro (⟨c, mem, unread⟩ | long)
        · have known := List.all_eq_true.mp readable.1 c mem
          rw [unread] at known
          cases known
        · exact absurd readable.2 (not_le.mpr long)
      · cases read
    · rename_i read
      split at read
      · cases read
      · rename_i unreadable
        refine iff_of_true rfl ?_
        by_contra readable
        push Not at readable
        refine unreadable ⟨List.all_eq_true.mpr fun c mem => ?_, readable.2⟩
        exact Option.isSome_iff_ne_none.mpr (readable.1 c mem)

theorem parseOption_raises (option : String) :
    OnlyRaises (fun e => (∃ message, e = .sendRefused message) ∨ e = .builtin "ValueError")
      (parseOption option) := by
  unfold parseOption
  dsimp only
  split
  · exact .error (.inl ⟨_, rfl⟩)
  · split
    · exact .ok _
    · exact .error (.inr rfl)

/-- What an option is spelled as is read back. -/
theorem parseOption_value {o : SendOption} (small : o.keyId ≤ maxInteger) (given : o.sender ≠ "") :
    parseOption o.value = .ok (o.keyId, o.sender) := by
  have ten : (Nat.toDigits 10 o.keyId).length ≤ 10 :=
    (Nat.length_toDigits_le_iff (by decide) (by decide)).mpr (lt_of_le_of_lt small (by decide))
  have absent : '|' ∉ o.keyId.repr.toList := by
    intro mem
    rw [Nat.toList_repr] at mem
    have digit := Nat.isDigit_of_mem_toDigits (by decide) (by decide) mem
    cases digit
  have split : partition '|' o.value = (o.keyId.repr, o.sender) := partition_append absent
  rw [parseOption, split]
  simp [isDigit_repr, given, intOfDigits?_repr (ten.trans (by decide))]

theorem length_trim_le (text : String) : (trim text).length ≤ text.length := by
  have first := (List.dropWhile_suffix isBlank (l := text.toList)).length_le
  have last := (List.dropWhile_suffix isBlank
    (l := (text.toList.dropWhile isBlank).reverse)).length_le
  rw [List.length_reverse] at last
  simp only [trim, String.length_ofList, List.length_reverse]
  exact last.trans first

theorem trim_ne_empty {text : String} {c : Char} (mem : c ∈ text.toList) (ink : isBlank c = false) :
    trim text ≠ "" := by
  intro empty
  have nothing := congrArg String.toList empty
  rw [trim, String.toList_ofList, String.toList_empty, List.reverse_eq_nil_iff,
    List.dropWhile_eq_nil_iff] at nothing
  rw [← List.takeWhile_append_dropWhile (p := isBlank) (l := text.toList)] at mem
  have blank : isBlank c = true := by
    rcases List.mem_append.mp mem with first | rest
    · exact List.mem_takeWhile_imp first
    · exact nothing c (List.mem_reverse.mpr rest)
  rw [ink] at blank
  cases blank

theorem length_testSubject (stamp : Stamp) : (testSubject stamp).length = 45 := by
  have spelled : testSubject stamp = "emaild test message — " ++ stamp.text := rfl
  rw [spelled, String.length_append, stamp.length]
  decide

theorem mem_testHtml (sender baseUrl : String) (stamp : Stamp) :
    '<' ∈ (testHtml sender baseUrl stamp).toList := by
  unfold testHtml
  dsimp only
  rw [String.toList_append]
  exact List.mem_append_right _ (by decide)

/-- All that is validated is the length of the sender. -/
theorem request_cases (post : TestPost) (sender : String) :
    ((trim sender).length < 3 ∧ post.request sender = .error (.builtin "ValidationError")) ∨
      3 ≤ (trim sender).length ∧ ∃ request, post.request sender = .ok request ∧
        (request.cc = none ∧ request.bcc = none) ∧ request.replyTo = none := by
  unfold TestPost.request validateTest
  split
  · rename_i valid
    exact .inr ⟨valid.1, _, rfl, ⟨rfl, rfl⟩, rfl⟩
  · rename_i invalid
    refine .inl ⟨?_, rfl⟩
    by_contra long
    refine invalid ⟨not_lt.mp long, (length_trim_le _).trans ?_, .inl ?_⟩
    · rw [length_testSubject]
      decide
    · exact trim_ne_empty (mem_testHtml sender post.baseUrl post.stamp) (by decide)

end Options

theorem testFault_iff_of_parsed {rt : Runtime} {db : Database} {post : TestPost} {keyId : Nat}
    {sender : String} (parsed : parseOption post.option = .ok (keyId, sender)) :
    TestFault rt db post ↔ strip post.recipient ≠ "" ∧ (maxInteger < keyId ∨
      ∃ principal, db.principalByNumber keyId = .ok principal ∧ ((trim sender).length < 3 ∨
        ∃ request, post.request sender = .ok request ∧ IngestFault rt db principal request)) := by
  constructor
  · rintro (unread | ⟨parsed', named, large⟩ | ⟨parsed', named, known, short⟩ |
      ⟨parsed', named, known, valid, fault⟩)
    · rw [parseOption_unread.mpr unread] at parsed
      cases parsed
    all_goals
      obtain ⟨rfl, rfl⟩ := Prod.mk.inj (Except.ok.inj (parsed.symm.trans parsed'))
    · exact ⟨named, .inl large⟩
    · exact ⟨named, .inr ⟨_, known, .inl short⟩⟩
    · exact ⟨named, .inr ⟨_, known, .inr ⟨_, valid, fault⟩⟩⟩
  · rintro ⟨named, large | ⟨principal, known, short | ⟨request, valid, fault⟩⟩⟩
    · exact .large parsed named large
    · exact .short parsed named known short
    · exact .ingest parsed named known valid fault

/-- What acceptance answers is passed on in the words of the dashboard. -/
theorem settles_reworded {db : Database} {run : Except Raised IngestResult × Session Database}
    (others : ∀ message s, run ≠ (.error (.sendRefused message), s)) :
    Settles id (fun e => ∃ message, e = .sendRefused message) db (reworded run) ↔
      Settles IngestResult.publicId Raised.IsApi db run := by
  obtain ⟨e | result, s⟩ := run
  · cases e with
    | api exc => exact and_congr_left' (iff_of_true ⟨_, rfl⟩ ⟨_, rfl⟩)
    | sendRefused message => exact absurd rfl (others message s)
    | _ => exact and_congr_left' (iff_of_false (by simp) (by simp [Raised.IsApi]))
  · exact Iff.rfl

section Settled
variable (rt : Runtime) (hash : List (String × PayloadValue) → String) (ttl : Nat) (db : Database)

end Settled

namespace Sample

def stamp : Stamp := ⟨"2026-01-01 00:00:00 UTC", by decide⟩

/-- A form with the option of the shop's key, unless another is given. -/
def testPost (option recipient : String) : TestPost where
  option := option
  recipient := recipient
  baseUrl := "http://localhost"
  stamp := stamp
  draw := ⟨1, ulid⟩
  now := 0

theorem store_admitting (option recipient : String) :
    (store mailbox).Admitting (testPost option recipient).draw where
  fresh := rfl
  unannounced e mem := absurd mem (Table.not_mem_empty e)
  unnamed m mem := absurd mem (Table.not_mem_empty m)
  ulid := (by decide : ulid.length = 26)
  addresses m mem := by
    cases List.mem_singleton.mp mem
    decide
  numbers key mem := by
    cases List.mem_singleton.mp mem
    decide

/-- A recipient without a domain is not looked up. -/
theorem ann_faultless : ¬ TestFault runtime (store mailbox)
    (testPost "1|noreply@shop.example" "ann") := by
  have parsed : parseOption (testPost "1|noreply@shop.example" "ann").option =
      .ok (1, "noreply@shop.example") := by decide
  have known : (store mailbox).principalByNumber 1 = .ok (principal mailbox) := rfl
  rw [testFault_iff_of_parsed parsed]
  rintro ⟨_, large | ⟨_, known', short | ⟨request, valid, fault⟩⟩⟩
  · revert large
    decide
  · revert short
    decide
  · unfold TestPost.request validateTest at valid
    split at valid
    · cases valid
      have unshaped : ¬ WellShaped (runtime.canonical (trim (strip "ann"))) := by decide
      have refused {toList : List String}
          (normal : normaliseRecipients runtime [trim (strip "ann")] "to" = .ok toList) : False :=
        unshaped (normaliseAddress_eq_ok.mp (normaliseRecipientsFrom_cons normal).1).2.1
      cases fault with
      | sender deep => cases deep
      | recipient _ deep => exact deep.elim (fun same => by cases same) fun h => unshaped h.1
      | address _ normal => exact refused normal
      | row vetted => exact refused vetted.toNormal
    · cases valid

end Sample

end Emaild
