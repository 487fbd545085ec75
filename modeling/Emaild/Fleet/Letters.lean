import Emaild.Mime
import Emaild.Fleet.Standing

/-!
From the request to the wire. A request is copied into a row, the row into what the
worker hands to its adapter, and that into a MIME message. Between the first two
anything may happen to the row but that its letter changes; its body may be purged.
-/
namespace Emaild
open Relational Transition Text

/-- The body is what it was, or it has been purged. -/
def BodyOf (m m' : Message) : Prop :=
  (m'.bodyPurgedAt = none ∧ m'.bodyHtml = m.bodyHtml ∧ m'.bodyText = m.bodyText) ∨
    (m'.bodyPurgedAt ≠ none ∧ m'.bodyHtml = none ∧ m'.bodyText = none)

/-- What is left of a message at a later time. -/
structure LetterOf (m m' : Message) : Prop where
  header : SameHeader m m'
  body : BodyOf m m'

/-- The sender as it is shown to a recipient. -/
def shownSender (displayName : Option String) (address : String) : String :=
  if orEmpty displayName = "" then address
  else quotedName (orEmpty displayName) ++ (" <" ++ address ++ ">")

/-- The MIME message carries what the caller asked for. A part has its lines ended, as
every part has. -/
structure Carries (request : SendEmailRequest) (displayName : Option String) (address : String)
    (toList ccList : List String) (mime : EmailMessage) : Prop where
  sender : mime.get? "From" = some (shownSender displayName address)
  «to» : mime.get? "To" = some (", ".intercalate toList)
  cc : mime.get? "Cc" = if ccList.isEmpty then none else some (", ".intercalate ccList)
  replyTo : mime.get? "Reply-To" = request.replyTo.filter (· ≠ "")
  subject : mime.get? "Subject" = request.subject.filter (· ≠ "")
  text : orEmpty request.text ≠ "" →
    mime.content.map Content.text = some (endLines (orEmpty request.text))
  html : orEmpty request.html ≠ "" →
    mime.content.bind Content.html? = some (endLines (orEmpty request.html))
  headers : ∀ h ∈ request.headers.getD Table.empty, ¬ Protected h.1 → h ∈ mime.headers

section Letter
variable (lib : MailLibrary) (request : SendEmailRequest) (displayName : Option String)
  (address : String) (toList ccList : List String)

/-- What the library's parser makes of a header value is that value: nothing in it is an
encoded word, and each address is written as the parser writes it. -/
structure ReadBack : Prop where
  sender : ∀ value, fromHeader lib displayName address = .ok value →
    lib.parse "From" value = some (shownSender displayName address)
  «to» : lib.parse "To" (", ".intercalate toList) = some (", ".intercalate toList)
  cc : ccList ≠ [] → lib.parse "Cc" (", ".intercalate ccList) = some (", ".intercalate ccList)
  replyTo : ∀ value ∈ request.replyTo.filter (· ≠ ""), lib.parse "Reply-To" value = some value
  subject : ∀ value ∈ request.subject.filter (· ≠ ""), lib.parse "Subject" value = some value

/-- What a purged body looks like: there is no HTML, and the text is the end of a line. -/
def LooksPurged : Prop := orEmpty request.html = "" ∧ endLines (orEmpty request.text) = "\n"

/-- Each value that goes into a header is one line and can be parsed as that header, and
the address can be written next to a display name. A name outside ASCII is encoded,
whatever it contains. -/
structure Writable (messageId : String) : Prop where
  subject : orEmpty request.subject ≠ "" → lib.Takes "Subject" (orEmpty request.subject)
  replyTo : orEmpty request.replyTo ≠ "" → lib.Takes "Reply-To" (orEmpty request.replyTo)
  «to» : lib.Takes "To" (", ".intercalate toList)
  cc : ccList ≠ [] → lib.Takes "Cc" (", ".intercalate ccList)
  named : orEmpty displayName ≠ "" → isAscii address = true
  mailbox : if orEmpty displayName = "" then OneLine address
    else Unbroken address ∧ (isAscii (orEmpty displayName) = true → Unbroken (orEmpty displayName))
  sender : ∀ value, fromHeader lib displayName address = .ok value →
    (lib.parse "From" value).isSome
  messageId : lib.Takes "Message-ID" messageId

end Letter

/-- The `message_id` that the SMTP adapter gives a message. -/
def OutboundMessage.messageId (m : OutboundMessage) : String :=
  messageIdHeader m.publicId ((afterFirst '@' m.fromAddress).getD "")

namespace Fleet
variable {D : Deployment} {s t u : Fleet} {now later : Time} {act : Action} {l : Label}

theorem RowChange.bodyOf {m r r' : Message} (c : RowChange D s now later act r r')
    (body : BodyOf m r) : BodyOf m r' := by
  cases c with
  | @recorded w result latencyMs jitter race a =>
      have leaves := (Recording.row_spec ⟨result, a.number, latencyMs, jitter, now, later⟩ r).2
      rwa [BodyOf, leaves.purged, leaves.body.1, leaves.body.2]
  | purged => exact .inr ⟨by simp [Message.purge], rfl, rfl⟩
  | _ => exact body

/-- A letter that is there stays, as long as the run goes on. -/
theorem letter_of_run (run : Reaches (step D) Any s t) {id : Nat} {m : Message}
    (found : s.db.messages.find? id = some m) (whole : m.bodyPurgedAt = none) :
    ∃ m', t.db.messages.find? id = some m' ∧ LetterOf m m' := by
  refine run.invariant (I := fun t => ∃ m', t.db.messages.find? id = some m' ∧ LetterOf m m')
    ⟨m, found, .refl m, .inl ⟨whole, rfl, rfl⟩⟩ ?_
  rintro r l u _ taken ⟨m', there, letter⟩
  obtain ⟨v, e, rfl⟩ := effect_of_step D taken
  cases e.row id with
  | same eq => exact ⟨m', eq.trans there, letter⟩
  | changed before after change =>
      obtain rfl := Option.some.inj (there.symm.trans before)
      exact ⟨_, after, letter.header.trans change.header, change.bodyOf letter.body⟩
  | new _ before => cases before.symm.trans there

/-- A request that stores a message, and the row it stores. -/
theorem stored_of_serve {principal : Principal} {request : SendEmailRequest} {key : Option String}
    {draw : IngestDraw} {result : IngestResult}
    (accepted : s.serve D principal request key draw = (.ok result, t))
    (first : result.replayed = false) :
    ∃ displayName identity toList ccList bccList,
      Vetted D.rt s.db principal request displayName identity toList ccList bccList ∧
      t.db.messages.find? draw.messageId = some (newMessage principal request identity displayName
        toList ccList bccList draw s.clock) := by
  have ends := ingestMessage_ends D.rt D.hash D.idempotencyTtlHours principal request key draw
    s.clock s.db
  dsimp only at ends
  unfold serve at accepted
  generalize sessionScope (ingestMessage D.rt D.hash D.idempotencyTtlHours principal request
    key draw s.clock) s.db = run at *
  obtain ⟨r, after⟩ := run
  obtain ⟨rfl, rfl⟩ := Prod.mk.inj accepted
  cases ends with
  | replayed => cases first
  | @stored displayName identity toList ccList bccList domainName m _ vetted row grows =>
      refine ⟨displayName, identity, toList, ccList, bccList, vetted, ?_⟩
      rw [← row]
      have inserted := grows.toStored.messages draw.messageId
      rwa [if_pos (by rw [row]; rfl)] at inserted

/-- What a worker makes of an accepted request when it opens an attempt. -/
theorem opened_of_serve {principal : Principal} {request : SendEmailRequest} {key : Option String}
    {draw : IngestDraw} {result : IngestResult}
    (accepted : s.serve D principal request key draw = (.ok result, t))
    (first : result.replayed = false) (meanwhile : Reaches (step D) Any t u)
    {v : Fleet} (opens : step D u l = some v) {w : String} {rest more : List Nat} {a : Attempt}
    {store : Database} (turn : (u.workers w).phase = .serving (draw.messageId :: rest))
    (stamped : (v.workers w).phase = .stamped a store more) :
    ∃ displayName identity toList ccList bccList row mailbox,
      Vetted D.rt s.db principal request displayName identity toList ccList bccList ∧
      store.messages.find? draw.messageId = some row ∧
      LetterOf (newMessage principal request identity displayName toList ccList bccList draw
        s.clock) row ∧ a.outbound = outboundOf row mailbox := by
  obtain ⟨displayName, identity, toList, ccList, bccList, vetted, stored⟩ :=
    stored_of_serve accepted first
  obtain ⟨row, there, letter⟩ := letter_of_run meanwhile stored rfl
  obtain ⟨x, e, rfl⟩ := effect_of_step D opens
  rcases e.stamped_of stamped with before | ⟨fails, id, _, serving, rfl, opened⟩
  · cases turn.symm.trans before
  · cases turn.symm.trans serving
    cases opened with
    | stamped found =>
        obtain rfl := Option.some.inj ((deliveryRow_eq_some.mp found).1.symm.trans there)
        exact ⟨displayName, identity, toList, ccList, bccList, _, _, vetted, there, letter, rfl⟩

end Fleet

section Outbound
variable {principal : Principal} {request : SendEmailRequest} {identity : SenderIdentity}
  {displayName : Option String} {toList ccList bccList : List String} {draw : IngestDraw}
  {accepted now : Time} {row : Message} (mailbox : Mailbox) {lib : MailLibrary}

theorem getD_some_of_isEmpty (l : List String) :
    (if l.isEmpty then none else some l).getD [] = l := by
  cases l <;> rfl

/-- What a worker makes of the row of a request. -/
theorem outboundOf_letter
    (letter : LetterOf (newMessage principal request identity displayName toList ccList bccList
      draw accepted) row) :
    let m := outboundOf row mailbox
    m.publicId = "email_" ++ draw.ulid ∧ m.fromName = displayName ∧
      m.fromAddress = identity.mailbox.address ∧ m.to = toList ∧ m.cc = ccList ∧
      m.replyTo = request.replyTo ∧ m.subject = request.subject := by
  have header := letter.header
  refine ⟨header.publicId, header.sender.2.1, header.sender.1, header.recipients.1, ?_,
    header.replyTo, header.subject⟩
  exact (congrArg (Option.getD · []) header.recipients.2.1).trans (getD_some_of_isEmpty ccList)

theorem contentOf_text {html text : Option String} (given : orEmpty text ≠ "") :
    (contentOf html text).inLines.text = endLines (orEmpty text) := by
  unfold contentOf
  split
  · rfl
  · split
    · rename_i alone written
      exact absurd ⟨given, written⟩ alone
    · rfl

theorem contentOf_html {html text : Option String} (given : orEmpty html ≠ "") :
    (contentOf html text).inLines.html? = some (endLines (orEmpty html)) := by
  unfold contentOf
  rw [if_pos given]
  split <;> rfl

variable (letter : LetterOf (newMessage principal request identity displayName toList ccList
  bccList draw accepted) row)
include letter

/-- The parts are those of the request until the body is purged, and then an empty one. -/
theorem parts_iff {mime : EmailMessage} (content : mime.content =
      some (contentOf (outboundOf row mailbox).html (outboundOf row mailbox).text).inLines) :
    ((orEmpty request.text ≠ "" →
        mime.content.map Content.text = some (endLines (orEmpty request.text))) ∧
      (orEmpty request.html ≠ "" →
        mime.content.bind Content.html? = some (endLines (orEmpty request.html)))) ↔
      row.bodyPurgedAt = none ∨ LooksPurged request := by
  rw [content]
  rcases letter.body with ⟨whole, html, text⟩ | ⟨purged, html, text⟩
  · have html : (outboundOf row mailbox).html = request.html := html
    have text : (outboundOf row mailbox).text = request.text := text
    rw [html, text]
    exact iff_of_true ⟨fun given => congrArg some (contentOf_text given), contentOf_html⟩
      (.inl whole)
  · have html : (outboundOf row mailbox).html = none := html
    have text : (outboundOf row mailbox).text = none := text
    have empty : (contentOf none none).inLines = .plain "\n" := rfl
    rw [html, text, empty, LooksPurged]
    simp only [purged, false_or]
    constructor
    · rintro ⟨showsText, showsHtml⟩
      have bare : orEmpty request.html = "" := by
        by_contra given
        cases showsHtml given
      exact ⟨bare, (Option.some.inj
        (showsText (request.hasBody.resolve_left (not_not.mpr bare)))).symm⟩
    · rintro ⟨bare, ends⟩
      exact ⟨fun _ => congrArg some ends.symm, fun given => absurd bare given⟩

/-- A message that was built shows what was asked for if its values are read back. -/
theorem shown_iff {messageId : String} {mime : EmailMessage}
    (built : buildMime lib (outboundOf row mailbox) messageId now = .ok mime) :
    (mime.get? "From" = some (shownSender displayName identity.mailbox.address) ∧
      mime.get? "To" = some (", ".intercalate toList) ∧
      (mime.get? "Cc" = if ccList.isEmpty then none else some (", ".intercalate ccList)) ∧
      mime.get? "Reply-To" = request.replyTo.filter (· ≠ "") ∧
      mime.get? "Subject" = request.subject.filter (· ≠ "")) ↔
      ReadBack lib request displayName identity.mailbox.address toList ccList := by
  obtain ⟨sender, written, taken, rfl⟩ := (buildMime_eq_ok rfl).mp built
  obtain ⟨publicId, fromName, fromAddress, toEq, ccEq, replyTo, subject⟩ :=
    outboundOf_letter mailbox letter
  obtain ⟨showsFrom, showsTo, showsCc, showsReplyTo, showsSubject⟩ :=
    get?_headed (some (contentOf (outboundOf row mailbox).html
      (outboundOf row mailbox).text).inLines) taken
  rw [fromName, fromAddress] at written
  rw [toEq] at showsTo
  rw [ccEq] at showsCc
  rw [replyTo] at showsReplyTo
  rw [subject] at showsSubject
  have readBack (name : String) (v : Option String) :
      v.bind (lib.parse name) = v ↔ ∀ value ∈ v, lib.parse name value = some value := by
    cases v <;> simp
  rw [showsFrom, showsTo, showsCc, showsReplyTo, showsSubject, readBack, readBack]
  constructor
  · rintro ⟨shownFrom, «to», cc, replyTo, subject⟩
    refine ⟨fun value again => ?_, «to», fun copied => ?_, replyTo, subject⟩
    · cases written.symm.trans again
      exact shownFrom
    · simpa [copied] using cc
  · intro back
    refine ⟨back.sender sender written, back.to, ?_, back.replyTo, back.subject⟩
    split
    · rfl
    · rename_i copied
      exact back.cc fun nil => copied (by rw [nil]; rfl)

/-- Of the caller's headers none is written, a purged body is an empty text, and the
headers of the message are what the library reads their values as. -/
theorem carries_iff {messageId : String} {mime : EmailMessage}
    (built : buildMime lib (outboundOf row mailbox) messageId now = .ok mime) :
    Carries request displayName identity.mailbox.address toList ccList mime ↔
      (∀ h ∈ request.headers.getD Table.empty, Protected h.1) ∧
        (row.bodyPurgedAt = none ∨ LooksPurged request) ∧
        ReadBack lib request displayName identity.mailbox.address toList ccList := by
  obtain ⟨sender, _, _, same⟩ := (buildMime_eq_ok rfl).mp built
  have parts := parts_iff mailbox letter (congrArg EmailMessage.content same)
  have shown := shown_iff mailbox letter built
  constructor
  · intro carries
    have own : ∀ name ∈ ownNames, Protected name := by decide
    refine ⟨fun h asked => ?_, parts.mp ⟨carries.text, carries.html⟩, shown.mp
      ⟨carries.sender, carries.to, carries.cc, carries.replyTo, carries.subject⟩⟩
    by_contra free
    have mem := carries.headers h asked free
    rw [same] at mem
    exact free (own h.1 (name_of_headed mem))
  · rintro ⟨kept, body, back⟩
    obtain ⟨text, html⟩ := parts.mpr body
    obtain ⟨sender, «to», cc, replyTo, subject⟩ := shown.mpr back
    exact {
      sender := sender, «to» := «to», cc := cc, replyTo := replyTo, subject := subject
      text := text, html := html
      headers := fun h asked free => absurd (kept h asked) free }

/-- The row of a request can be made into a message exactly if the request is writable. -/
theorem buildMime_letter_iff :
    (∃ mime, buildMime lib (outboundOf row mailbox) (outboundOf row mailbox).messageId now =
        .ok mime) ↔
      Writable lib request displayName identity.mailbox.address toList ccList
        (messageIdHeader ("email_" ++ draw.ulid)
          ((afterFirst '@' identity.mailbox.address).getD "")) := by
  obtain ⟨publicId, fromName, fromAddress, toEq, ccEq, replyTo, subject⟩ :=
    outboundOf_letter mailbox letter
  simp only [buildMime_eq_ok (m := outboundOf row mailbox) rfl, ownHeaders_taken, toEq, ccEq,
    replyTo, subject, OutboundMessage.messageId, publicId, fromName, fromAddress]
  constructor
  · rintro ⟨_, sender, written, ⟨⟨line, parsed⟩, «to», cc, reply, about, reference⟩, _⟩
    exact {
      subject := about, replyTo := reply, «to» := «to», cc := cc, messageId := reference
      named := (fromHeader_eq_ok lib).mp ⟨sender, written⟩
      mailbox := (fromHeader_oneLine written).mp line
      sender := fun value again => by
        cases written.symm.trans again
        exact parsed }
  · intro writable
    obtain ⟨sender, written⟩ := (fromHeader_eq_ok lib).mpr writable.named
    exact ⟨_, sender, written, ⟨⟨(fromHeader_oneLine written).mpr writable.mailbox,
      writable.sender sender written⟩, writable.to, writable.cc, writable.replyTo,
      writable.subject, writable.messageId⟩, rfl⟩

end Outbound
namespace Fleet
variable {D : Deployment} {s t u v : Fleet} {l : Label} {principal : Principal}
  {request : SendEmailRequest} {key : Option String} {draw : IngestDraw} {result : IngestResult}
  {w : String} {rest more : List Nat} {a : Attempt} {store : Database} {lib : MailLibrary}

/-- Whatever happens between its acceptance and an attempt, a request is carried by the
message that is built for it exactly if it has no header of its own but protected ones,
the body of its row has not been purged (or looks as if it had been) and the library
reads back what its headers are set to. -/
theorem accepted_request_is_carried_iff
    (accepted : s.serve D principal request key draw = (.ok result, t))
    (first : result.replayed = false) (meanwhile : Reaches (step D) Any t u)
    (turn : (u.workers w).phase = .serving (draw.messageId :: rest))
    (opens : step D u l = some v) (stamped : (v.workers w).phase = .stamped a store more)
    {now : Time} {mime : EmailMessage}
    (built : buildMime lib a.outbound a.outbound.messageId now = .ok mime) :
    ∃ displayName identity toList ccList bccList row,
      checkRequest D.rt s.db principal request =
        .ok (displayName, identity, toList, ccList, bccList) ∧
      store.messages.find? draw.messageId = some row ∧
      (Carries request displayName identity.mailbox.address toList ccList mime ↔
        (∀ h ∈ request.headers.getD Table.empty, Protected h.1) ∧
          (row.bodyPurgedAt = none ∨ LooksPurged request) ∧
          ReadBack lib request displayName identity.mailbox.address toList ccList) := by
  obtain ⟨displayName, identity, toList, ccList, bccList, row, mailbox, vetted, found, letter,
    outbound⟩ := opened_of_serve accepted first meanwhile opens turn stamped
  rw [outbound] at built
  exact ⟨displayName, identity, toList, ccList, bccList, row, checkRequest_eq_ok.mpr vetted, found,
    carries_iff mailbox letter built⟩

/-- The message can be built exactly if the request is writable. -/
theorem accepted_request_is_built_iff
    (accepted : s.serve D principal request key draw = (.ok result, t))
    (first : result.replayed = false) (meanwhile : Reaches (step D) Any t u)
    (turn : (u.workers w).phase = .serving (draw.messageId :: rest))
    (opens : step D u l = some v) (stamped : (v.workers w).phase = .stamped a store more)
    (now : Time) :
    ∃ displayName identity toList ccList bccList,
      checkRequest D.rt s.db principal request =
        .ok (displayName, identity, toList, ccList, bccList) ∧
      ((∃ mime, buildMime lib a.outbound a.outbound.messageId now = .ok mime) ↔
        Writable lib request displayName identity.mailbox.address toList ccList
          (messageIdHeader ("email_" ++ draw.ulid)
            ((afterFirst '@' identity.mailbox.address).getD ""))) := by
  obtain ⟨displayName, identity, toList, ccList, bccList, row, mailbox, vetted, _, letter,
    outbound⟩ := opened_of_serve accepted first meanwhile opens turn stamped
  rw [outbound]
  exact ⟨displayName, identity, toList, ccList, bccList, checkRequest_eq_ok.mpr vetted,
    buildMime_letter_iff mailbox letter⟩

end Fleet

/-! A request that is accepted, claimed and attempted. -/
namespace Sample
open Fleet

def asked (request : SendEmailRequest) : Except Raised IngestResult × Fleet :=
  (fleet mailbox).serve deployment (principal mailbox) request none ⟨1, "A"⟩

def queue? : Phase → Option (List Nat)
  | .serving ids => some ids
  | _ => none

def attempt? : Phase → Option (Attempt × Database)
  | .stamped a store _ => some (a, store)
  | _ => none

/-- The worker has claimed the message. -/
def claimedBy (request : SendEmailRequest) : Option Fleet :=
  execute (step deployment) (asked request).2 [now (.start "A"), claimBy "A" [1]]

/-- The message that the worker builds, and whether it found the body purged. -/
def letterBuilt (request : SendEmailRequest) :
    Option (Except MimeError EmailMessage × Option (Option Time)) :=
  ((claimedBy request).bind fun u => step deployment u (now (.deliver "A" false))).bind fun v =>
    (attempt? (v.workers "A").phase).map fun (a, store) =>
      (buildMime library a.outbound a.outbound.messageId 0,
        (store.messages.find? 1).map Message.bodyPurgedAt)

structure Attempted (request : SendEmailRequest) (t u v : Fleet) (a : Attempt) (store : Database)
    (more : List Nat) : Prop where
  accepted : asked request = (.ok ⟨"email_A", "queued", false⟩, t)
  meanwhile : Reaches (step deployment) Any t u
  turn : (u.workers "A").phase = .serving [1]
  opens : step deployment u (now (.deliver "A" false)) = some v
  stamped : (v.workers "A").phase = .stamped a store more

theorem attempted (request : SendEmailRequest) {built : Except MimeError EmailMessage}
    (accepted : (asked request).1 = .ok ⟨"email_A", "queued", false⟩)
    (claimed : ((claimedBy request).map fun s => queue? (s.workers "A").phase) = some (some [1]))
    (run : letterBuilt request = some (built, some none)) :
    ∃ t u v a store more, Attempted request t u v a store more ∧
      buildMime library a.outbound a.outbound.messageId 0 = built ∧
      ∀ row, store.messages.find? 1 = some row → row.bodyPurgedAt = none := by
  obtain ⟨v, opens, run⟩ := Option.bind_eq_some_iff.mp run
  obtain ⟨u, taken, opens⟩ := Option.bind_eq_some_iff.mp opens
  obtain ⟨⟨a, store⟩, attempt, run⟩ := Option.map_eq_some_iff.mp run
  obtain ⟨built, whole⟩ := Prod.mk.inj run
  rw [taken, Option.map_some, Option.some.injEq] at claimed
  have turn : (u.workers "A").phase = .serving [1] := by
    cases phase : (u.workers "A").phase with
    | serving ids =>
        rw [phase] at claimed
        rw [Option.some.inj claimed]
    | _ => rw [phase] at claimed; cases claimed
  cases phase : (v.workers "A").phase with
  | stamped b store' more =>
      rw [phase] at attempt
      obtain ⟨rfl, rfl⟩ := Prod.mk.inj (Option.some.inj attempt)
      exact ⟨_, u, v, b, store', more, {
        accepted := by rw [← accepted]
        meanwhile := reaches_of_execute taken fun _ _ _ => trivial
        turn := turn, opens := opens, stamped := phase }, built,
        fun row found => Option.some.inj ((congrArg _ found).symm.trans whole)⟩
  | _ => rw [phase] at attempt; cases attempt

/-- A letter with a header of the caller's own. -/
def campaign : SendEmailRequest :=
  { letter "ann@example.net" [] with headers := some (Dict.ofList [("X-Campaign", "spring")]) }

/-- A letter whose subject goes on to a second line. -/
def twoLines : SendEmailRequest :=
  { «from» := "noreply@shop.example", «to» := ["ann@example.net"], subject := some "Hello\nAnn"
    text := some "hello", fromLength := sender_length, hasBody := hello_written }

def helloBuilt : EmailMessage where
  headers := [("From", "noreply@shop.example"), ("To", "ann@example.net"),
    ("Message-ID", "<email_A@shop.example>"), ("Date", "Thu, 01 Jan 1970 00:00:00 +0000")]
  content := some (.plain "hello\n")

theorem letter_checked {displayName : Option String} {identity : SenderIdentity}
    {toList ccList bccList : List String}
    (checks : checkRequest runtime (fleet mailbox).db (principal mailbox)
      (letter "ann@example.net" []) = .ok (displayName, identity, toList, ccList, bccList)) :
    displayName = none ∧ identity.mailbox.address = "noreply@shop.example" ∧
      toList = ["ann@example.net"] ∧ ccList = [] := by
  have known : (checkRequest runtime (fleet mailbox).db (principal mailbox)
      (letter "ann@example.net" [])).map (fun parts =>
        (parts.1, parts.2.1.mailbox.address, parts.2.2.1, parts.2.2.2.1)) =
      .ok (none, "noreply@shop.example", ["ann@example.net"], []) := by decide +kernel
  rw [checks] at known
  simpa only [Except.map, Except.ok.injEq, Prod.mk.injEq] using known

theorem letter_attempted : ∃ t u v a store more,
    Attempted (letter "ann@example.net" []) t u v a store more ∧
    buildMime library a.outbound a.outbound.messageId 0 = .ok helloBuilt ∧
    ∀ row, store.messages.find? 1 = some row → row.bodyPurgedAt = none :=
  attempted _ (by decide +kernel) (by decide +kernel) (by decide +kernel)

end Sample

open Sample

/-- The caller's header is not in the message. -/
theorem campaign_header_is_lost : ∃ t u v a store more,
    Attempted campaign t u v a store more ∧
    buildMime library a.outbound a.outbound.messageId 0 = .ok helloBuilt ∧
    ¬ Carries campaign none "noreply@shop.example" ["ann@example.net"] [] helloBuilt := by
  obtain ⟨t, u, v, a, store, more, run, built, _⟩ := attempted campaign
    (by decide +kernel) (by decide +kernel)
    (show letterBuilt campaign = some (.ok helloBuilt, some none) by decide +kernel)
  refine ⟨t, u, v, a, store, more, run, built, fun carries => ?_⟩
  have asked : ("X-Campaign", "spring") ∈ campaign.headers.getD Table.empty :=
    Table.mem_def.mpr (by decide)
  exact absurd (carries.headers _ asked (by decide)) (by decide)

theorem plain_letter_is_carried : ∃ t u v a store more,
    Attempted (letter "ann@example.net" []) t u v a store more ∧
    buildMime library a.outbound a.outbound.messageId 0 = .ok helloBuilt ∧
    Carries (letter "ann@example.net" []) none "noreply@shop.example" ["ann@example.net"] []
      helloBuilt := by
  obtain ⟨t, u, v, a, store, more, run, built, whole⟩ := letter_attempted
  obtain ⟨displayName, identity, toList, ccList, bccList, row, checks, found, carried⟩ :=
    Fleet.accepted_request_is_carried_iff run.accepted rfl run.meanwhile run.turn run.opens
      run.stamped built
  obtain ⟨rfl, address, rfl, rfl⟩ := letter_checked checks
  rw [address] at *
  refine ⟨t, u, v, a, store, more, run, built, carried.mpr ⟨?_, .inl (whole row found), ?_⟩⟩
  · exact fun h mem => absurd mem (Table.not_mem_empty h)
  · exact {
      sender := fun value written => by cases written; rfl
      «to» := rfl
      cc := fun copied => absurd rfl copied
      replyTo := fun value given => by cases given
      subject := fun value given => by cases given }

/-- A subject of two lines is accepted, and the message cannot be built. -/
theorem second_line_is_not_built : ∃ t u v a store more,
    Attempted twoLines t u v a store more ∧
    buildMime library a.outbound a.outbound.messageId 0 = .error (.lineBreak "Subject") := by
  obtain ⟨t, u, v, a, store, more, run, built, _⟩ := attempted twoLines
    (by decide +kernel) (by decide +kernel)
    (show letterBuilt twoLines = some (.error (.lineBreak "Subject"), some none) by decide +kernel)
  exact ⟨t, u, v, a, store, more, run, built⟩

theorem plain_letter_is_built : ∃ t u v a store more,
    Attempted (letter "ann@example.net" []) t u v a store more ∧
    ∃ mime, buildMime library a.outbound a.outbound.messageId 0 = .ok mime := by
  obtain ⟨t, u, v, a, store, more, run, _⟩ := letter_attempted
  obtain ⟨displayName, identity, toList, ccList, bccList, checks, buildable⟩ :
      ∃ displayName identity toList ccList bccList, _ ∧
        ((∃ mime, buildMime library a.outbound a.outbound.messageId 0 = .ok mime) ↔
          Writable library _ displayName (SenderIdentity.mailbox identity).address toList ccList
            (messageIdHeader "email_A" ((afterFirst '@' identity.mailbox.address).getD ""))) :=
    Fleet.accepted_request_is_built_iff run.accepted rfl run.meanwhile run.turn run.opens
      run.stamped 0
  obtain ⟨rfl, address, rfl, rfl⟩ := letter_checked checks
  rw [address] at *
  exact ⟨t, u, v, a, store, more, run, buildable.mpr {
    subject := fun given => absurd rfl given
    replyTo := fun given => absurd rfl given
    «to» := ⟨by decide, rfl⟩
    cc := fun copied => absurd rfl copied
    named := fun named => absurd rfl named
    mailbox := by decide
    sender := fun value written => by cases written; rfl
    messageId := ⟨by decide, rfl⟩ }⟩

end Emaild
