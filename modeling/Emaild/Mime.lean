import Emaild.Delivery
import Emaild.Text.Lines

/-!
MIME assembly: the headers and the parts that the recipients of a message will see.
What the mail library adds for itself, and how it encodes a part for the transfer, is
left out. It refuses a header value of more than one line and keeps any other as its
parser for that header reads it; the lines of a part it ends with a line feed each.
-/
namespace Emaild
open Relational Text

def isAscii (s : String) : Bool := s.toList.all fun c => c.toNat < 128

/-- `s.lower()`, where only ASCII names are asked for. -/
def lowered (s : String) : String := .ofList (s.toList.map Char.toLower)

/-- What the mail library does by itself: it makes an encoded word and the date, and reads
what a header is set to. Its parser raises on some values. -/
structure MailLibrary where
  encodeWord : String → String
  formatdate : Time → String
  parse : String → String → Option String
  encodeWord_unbroken : ∀ s, Unbroken (encodeWord s)
  formatdate_oneLine : ∀ t, OneLine (formatdate t)
  formatdate_parsed : ∀ t, (parse "Date" (formatdate t)).isSome

/-- A header of this name can be set to the value. -/
def MailLibrary.Takes (lib : MailLibrary) (name value : String) : Prop :=
  OneLine value ∧ (lib.parse name value).isSome

inductive MimeError
  | lineBreak (name : String)
  | repeated (name : String)
  | rejected (name : String)
  | notAscii
  | multipartContent
  deriving DecidableEq

/-- A display name, in quotes if it needs them. -/
def quotedName (name : String) : String :=
  let quotes := if name.toList.any (· ∈ "[]\\()<>@,:;\".".toList) then "\"" else ""
  let escaped := String.ofList (name.toList.flatMap fun c =>
    if c = '\\' || c = '"' then ['\\', c] else [c])
  quotes ++ escaped ++ quotes

/-- `formataddr((name, address))` -/
def formataddr (lib : MailLibrary) (name address : String) : Except MimeError String :=
  if !isAscii address then .error .notAscii
  else if name = "" then .ok address
  else
    let shown := if isAscii name then quotedName name else lib.encodeWord name
    .ok (shown ++ (" <" ++ address ++ ">"))

/-- The parts: plain text, or plain text with HTML as its alternative. -/
inductive Content
  | plain (text : String)
  | alternative (text html : String)
  deriving DecidableEq

def Content.text : Content → String
  | plain text | alternative text _ => text

def Content.html? : Content → Option String
  | plain _ => none
  | alternative _ html => some html

/-- The content as the library's content manager lays it out. -/
def Content.inLines : Content → Content
  | plain text => plain (endLines text)
  | alternative text html => alternative (endLines text) (endLines html)

structure EmailMessage where
  headers : List (String × String) := []
  content : Option Content := none
  deriving DecidableEq

namespace EmailMessage

/-- Headers that the library allows only once. -/
def atMostOnce : List String :=
  ["from", "to", "cc", "bcc", "sender", "reply-to", "subject", "date", "orig-date", "message-id",
    "mime-version", "content-type", "content-disposition", "content-transfer-encoding"]

/-- `mime.get(name)` -/
def get? (mime : EmailMessage) (name : String) : Option String :=
  (mime.headers.find? fun h => lowered h.1 = lowered name).map Prod.snd

/-- `mime[name] = value` -/
def set (lib : MailLibrary) (mime : EmailMessage) (name value : String) :
    Except MimeError EmailMessage :=
  if lowered name ∈ atMostOnce ∧ (mime.get? name).isSome then .error (.repeated name)
  else if ¬ OneLine value then .error (.lineBreak name)
  else match lib.parse name value with
    | some read => .ok { mime with headers := mime.headers ++ [(name, read)] }
    | none => .error (.rejected name)

/-- `mime.get_content_maintype()` -/
def maintype (mime : EmailMessage) : String :=
  match mime.get? "content-type" with
  | none => "text"
  | some value =>
      let type := strip (lowered (.ofList (value.toList.takeWhile (· ≠ ';'))))
      if type.toList.count '/' = 1 then .ofList (type.toList.takeWhile (· ≠ '/')) else "text"

/-- `mime.set_content(…)`, with the alternative that is added to it. -/
def setContent (mime : EmailMessage) (content : Content) : Except MimeError EmailMessage :=
  if mime.maintype = "multipart" then .error .multipartContent
  else .ok {
    headers := mime.headers.filter fun h => !startsWith "content-" (lowered h.1)
    content := some content.inLines }

end EmailMessage

/-! `_html_to_text` -/
namespace HtmlToText
open Regex

/-- `re.sub` for a pattern that does not match the empty text. -/
def substitute (r : Regex) (replacement text : String) : String :=
  let rec go : Nat → List Char → List Char
    | n + 1, x :: xs =>
        match (rest r (x :: xs)).head? with
        | some after => replacement.toList ++ go n after
        | none => x :: go n xs
    | _, xs => xs
  .ofList (go text.toList.length text.toList)

/-- Case as a back reference ignores it. -/
def lowerCase (c : Char) : Char :=
  if c = 'İ' then 'i' else if c = '\u212a' then 'k' else c.toLower

/-- What remains behind the first closing tag of an element. -/
def closed (tag : List Char) : List Char → Option (List Char)
  | [] => none
  | x :: xs =>
      let close := '<' :: '/' :: tag ++ ['>']
      if ((x :: xs).take close.length).map lowerCase = close.map lowerCase then
        some ((x :: xs).drop close.length)
      else closed tag xs

/-- `(?is)<(script|style).*?</\1>` at the head of a text. -/
def element (xs : List Char) : Option (List Char) :=
  ["<script", "<style"].findSome? fun start =>
    (rest (word start) xs).head?.bind fun after =>
      closed ((xs.take start.length).drop 1) after

def withoutElements (text : String) : String :=
  let rec go : Nat → List Char → List Char
    | n + 1, x :: xs =>
        match element (x :: xs) with
        | some after => go n after
        | none => x :: go n xs
    | _, xs => xs
  .ofList (go text.toList.length text.toList)

/-- `(?i)<br\s*/?>` -/
def lineBreakTag : Regex :=
  seq (word "<br") (seq (star (set isSpace)) (seq (optional (word "/")) (word ">")))

/-- `(?i)</(p|div|h[1-6]|li|tr)>` -/
def blockEnd : Regex :=
  seq (word "</") (seq (oneOf [word "p", word "div",
    seq (word "h") (set fun c => '1' ≤ c && c ≤ '6'), word "li", word "tr"]) (word ">"))

/-- `<[^>]+>` -/
def anyTag : Regex :=
  seq (word "<") (seq (set (· ≠ '>')) (seq (star (set (· ≠ '>'))) (word ">")))

/-- `\n{3,}` -/
def blankLines : Regex :=
  seq (word "\n\n\n") (star (set (· = '\n')))

def entities : List (String × String) :=
  [("&nbsp;", " "), ("&amp;", "&"), ("&lt;", "<"), ("&gt;", ">"), ("&quot;", "\""), ("&#39;", "'")]

end HtmlToText

open HtmlToText in
/-- `_html_to_text` -/
def htmlToText (html : String) : String :=
  let text := withoutElements html
  let text := substitute lineBreakTag "\n" text
  let text := substitute blockEnd "\n" text
  let text := substitute anyTag "" text
  let text := entities.foldl (fun text (entity, char) => text.replace entity char) text
  strip (substitute blankLines "\n\n" text)

/-- Caller-supplied headers that never overwrite the message's own. -/
def protectedHeaders : List String :=
  ["from", "to", "cc", "bcc", "message-id", "date", "subject", "reply-to"]

def Protected (key : String) : Prop := lowered key ∈ protectedHeaders

instance (key : String) : Decidable (Protected key) := inferInstanceAs (Decidable (_ ∈ _))

/-- The value of the From header. -/
def fromHeader (lib : MailLibrary) (fromName : Option String) (fromAddress : String) :
    Except MimeError String :=
  if orEmpty fromName = "" then .ok fromAddress else formataddr lib (orEmpty fromName) fromAddress

/-- What the body is made of. -/
def contentOf (html text : Option String) : Content :=
  if orEmpty text ≠ "" ∧ orEmpty html ≠ "" then .alternative (orEmpty text) (orEmpty html)
  else if orEmpty html ≠ "" then .alternative (htmlToText (orEmpty html)) (orEmpty html)
  else .plain (orEmpty text)

/-- `build_mime` -/
def buildMime (lib : MailLibrary) (m : OutboundMessage) (messageId : String) (now : Time) :
    Except MimeError EmailMessage := do
  let sender ← fromHeader lib m.fromName m.fromAddress
  let mime ← EmailMessage.set lib {} "From" sender
  let mime ← mime.set lib "To" (", ".intercalate m.to)
  let mime ← if m.cc.isEmpty then pure mime else mime.set lib "Cc" (", ".intercalate m.cc)
  let mime ← if orEmpty m.replyTo = "" then pure mime
    else mime.set lib "Reply-To" (orEmpty m.replyTo)
  let mime ← if orEmpty m.subject = "" then pure mime
    else mime.set lib "Subject" (orEmpty m.subject)
  let mime ← mime.set lib "Message-ID" messageId
  let mime ← mime.set lib "Date" (lib.formatdate now)
  let mime ← m.headers.rows.foldlM (fun mime (key, value) =>
    if Protected key then pure mime else mime.set lib key value) mime
  mime.setContent (contentOf m.html m.text)

/-! What fits on one line. -/

theorem quotedName_unbroken {name : String} : Unbroken (quotedName name) ↔ Unbroken name := by
  have quotes (c : Prop) [Decidable c] : Unbroken (if c then "\"" else "") := by
    split <;> decide
  unfold quotedName
  simp only [unbroken_append, quotes, true_and, and_true]
  simp only [Unbroken, String.toList_ofList, List.mem_flatMap]
  refine ⟨fun escaped c mem => escaped c ⟨c, mem, ?_⟩, fun unbroken d ⟨c, mem, among⟩ => ?_⟩
  · split <;> simp
  · split at among
    · rcases List.mem_pair.mp among with rfl | rfl
      · rfl
      · exact unbroken d mem
    · rw [List.mem_singleton.mp among]
      exact unbroken c mem

theorem angled_oneLine {shown address : String} :
    OneLine (shown ++ (" <" ++ address ++ ">")) ↔ Unbroken shown ∧ Unbroken address := by
  have ending : OneLine ">" := by decide
  have opening : Unbroken " <" := by decide
  have begins : (" <" ++ address ++ ">").toList = ' ' :: ("<" ++ address ++ ">").toList := by
    simp only [String.toList_append]
    rfl
  rw [oneLine_append begins rfl, oneLine_append (c := '>') rfl rfl, unbroken_append]
  simp only [ending, opening, true_and, and_true]

/-- A display name is written only beside an address in ASCII. -/
theorem fromHeader_eq_ok (lib : MailLibrary) {name : Option String} {address : String} :
    (∃ value, fromHeader lib name address = .ok value) ↔
      (orEmpty name ≠ "" → isAscii address = true) := by
  unfold fromHeader formataddr
  by_cases unnamed : orEmpty name = ""
  · simp [unnamed]
  · cases isAscii address <;> simp [unnamed]

/-- When the sender can be written on one line. -/
theorem fromHeader_oneLine {lib : MailLibrary} {name : Option String} {address value : String}
    (written : fromHeader lib name address = .ok value) : OneLine value ↔
      if orEmpty name = "" then OneLine address
      else Unbroken address ∧ (isAscii (orEmpty name) = true → Unbroken (orEmpty name)) := by
  unfold fromHeader formataddr at written
  split at written
  · rename_i unnamed
    cases written
    rw [if_pos unnamed]
  · rename_i named
    rw [if_neg named]
    split at written
    · cases written
    · cases written
      rw [angled_oneLine, and_comm]
      refine and_congr_right fun _ => ?_
      split
      · rename_i ascii
        rw [quotedName_unbroken]
        exact ⟨fun unbroken _ => unbroken, fun unbroken => unbroken ascii⟩
      · rename_i coded
        exact iff_of_true (lib.encodeWord_unbroken _) fun ascii => absurd ascii coded

/-! Without headers of the caller. -/

/-- The header as the library keeps it. -/
def MailLibrary.read (lib : MailLibrary) (h : String × String) : String × String :=
  (h.1, (lib.parse h.1 h.2).getD h.2)

namespace EmailMessage
variable {lib : MailLibrary} {mime mime' : EmailMessage} {name value : String}

theorem get?_eq_none : mime.get? name = none ↔ ∀ h ∈ mime.headers, lowered h.1 ≠ lowered name := by
  simp [get?]

theorem get?_of_mem (names : (mime.headers.map fun h => lowered h.1).Nodup)
    (mem : (name, value) ∈ mime.headers) : mime.get? name = some value := by
  unfold get?
  cases found : mime.headers.find? fun h => lowered h.1 = lowered name with
  | none => simpa using List.find?_eq_none.mp found _ mem
  | some h =>
      have same : lowered h.1 = lowered name := by simpa using List.find?_some found
      have eq : h = (name, value) :=
        List.inj_on_of_nodup_map names (List.mem_of_find?_eq_some found) mem same
      rw [eq]
      rfl

theorem set_fresh (fresh : mime.get? name = none) : mime.set lib name value = .ok mime' ↔
    lib.Takes name value ∧
      mime' = { mime with headers := mime.headers ++ [lib.read (name, value)] } := by
  unfold set MailLibrary.Takes MailLibrary.read
  by_cases line : OneLine value
  · cases parsed : lib.parse name value <;> simp [fresh, line, eq_comm]
  · simp [fresh, line]

/-- Headers that differ in their names are set one after the other. -/
theorem foldlM_set (fields : List (String × String)) (mime : EmailMessage)
    (names : ((mime.headers ++ fields).map fun h => lowered h.1).Nodup) :
    fields.foldlM (fun mime h => mime.set lib h.1 h.2) mime = .ok mime' ↔
      (∀ h ∈ fields, lib.Takes h.1 h.2) ∧
        mime' = { mime with headers := mime.headers ++ fields.map lib.read } := by
  induction fields generalizing mime with
  | nil => simp [pure, Except.pure, eq_comm]
  | cons h fields ih =>
      have fresh : mime.get? h.1 = none := by
        refine get?_eq_none.mpr fun other mem => ?_
        rw [List.map_append, List.nodup_append] at names
        exact names.2.2 _ (List.mem_map_of_mem mem) _ (List.mem_map_of_mem List.mem_cons_self)
      have rest := ih { mime with headers := mime.headers ++ [lib.read h] } (by
        simpa [MailLibrary.read] using names)
      rw [List.foldlM_cons, List.forall_mem_cons, and_assoc]
      cases taken : mime.set lib h.1 h.2 with
      | error e =>
          have refused : ¬ lib.Takes h.1 h.2 := by
            intro takes
            cases taken.symm.trans ((set_fresh fresh).mpr ⟨takes, rfl⟩)
          simp [bind, Except.bind, refused]
      | ok next =>
          obtain ⟨takes, rfl⟩ := (set_fresh fresh).mp taken
          simp only [bind, Except.bind, takes, true_and, List.map_cons]
          rw [rest, List.append_assoc, List.singleton_append]

end EmailMessage

/-- The headers of a message of its own. -/
def ownHeaders (lib : MailLibrary) (m : OutboundMessage) (sender messageId : String) (now : Time) :
    List (String × String) :=
  [("From", sender), ("To", ", ".intercalate m.to)] ++
    (if m.cc.isEmpty then [] else [("Cc", ", ".intercalate m.cc)]) ++
    (if orEmpty m.replyTo = "" then [] else [("Reply-To", orEmpty m.replyTo)]) ++
    (if orEmpty m.subject = "" then [] else [("Subject", orEmpty m.subject)]) ++
    [("Message-ID", messageId), ("Date", lib.formatdate now)]

def ownNames : List String := ["From", "To", "Cc", "Reply-To", "Subject", "Message-ID", "Date"]

section Own
variable (lib : MailLibrary) (m : OutboundMessage) (sender messageId : String) (now : Time)

theorem ownHeaders_sublist :
    ((ownHeaders lib m sender messageId now).map Prod.fst).Sublist ownNames := by
  have piece (c : Prop) [Decidable c] (h : String × String) :
      ((if c then [] else [h]).map Prod.fst).Sublist [h.1] := by
    split <;> simp
  simp only [ownHeaders, List.map_append]
  exact ((((List.Sublist.refl _).append (piece ..)).append (piece ..)).append (piece ..)).append
    (.refl _)

theorem buildMime_eq (plain : m.headers = Table.empty) :
    buildMime lib m messageId now = (do
      let sender ← fromHeader lib m.fromName m.fromAddress
      let mime ← (ownHeaders lib m sender messageId now).foldlM
        (fun mime h => mime.set lib h.1 h.2) ({} : EmailMessage)
      mime.setContent (contentOf m.html m.text)) := by
  unfold buildMime ownHeaders
  rw [plain]
  refine bind_congr fun sender => ?_
  by_cases cc : m.cc.isEmpty <;> by_cases replyTo : orEmpty m.replyTo = "" <;>
    by_cases subject : orEmpty m.subject = ""
  all_goals
    simp only [cc, replyTo, subject, Table.empty, List.foldlM_append, List.foldlM_cons,
      List.foldlM_nil, bind_assoc, pure_bind, if_true, if_false, Bool.false_eq_true]

variable {lib m sender messageId now}

theorem name_of_ownHeaders {h : String × String}
    (mem : h ∈ ownHeaders lib m sender messageId now) : h.1 ∈ ownNames :=
  (ownHeaders_sublist ..).subset (List.mem_map_of_mem mem)

theorem ownHeaders_nodup :
    ((ownHeaders lib m sender messageId now).map fun h => lowered h.1).Nodup := by
  have names : (ownNames.map lowered).Nodup := by decide
  have own := names.sublist ((ownHeaders_sublist lib m sender messageId now).map lowered)
  rwa [List.map_map] at own

/-- The headers of its own can be set exactly if each value is taken. -/
theorem ownHeaders_taken :
    (∀ h ∈ ownHeaders lib m sender messageId now, lib.Takes h.1 h.2) ↔
      lib.Takes "From" sender ∧ lib.Takes "To" (", ".intercalate m.to) ∧
        (m.cc ≠ [] → lib.Takes "Cc" (", ".intercalate m.cc)) ∧
        (orEmpty m.replyTo ≠ "" → lib.Takes "Reply-To" (orEmpty m.replyTo)) ∧
        (orEmpty m.subject ≠ "" → lib.Takes "Subject" (orEmpty m.subject)) ∧
        lib.Takes "Message-ID" messageId := by
  have optional (c : Prop) [Decidable c] (h : String × String) :
      (∀ h' ∈ (if c then [] else [h]), lib.Takes h'.1 h'.2) ↔ (¬ c → lib.Takes h.1 h.2) := by
    by_cases given : c <;> simp [given]
  have date : lib.Takes "Date" (lib.formatdate now) :=
    ⟨lib.formatdate_oneLine now, lib.formatdate_parsed now⟩
  simp only [ownHeaders, List.forall_mem_append, optional, List.forall_mem_cons, date,
    List.isEmpty_iff]
  simp only [List.not_mem_nil, false_implies, implies_true, and_true, and_assoc, ne_eq]

/-- The message while its headers of its own are set. -/
def headed (lib : MailLibrary) (m : OutboundMessage) (sender messageId : String) (now : Time) :
    EmailMessage :=
  { headers := (ownHeaders lib m sender messageId now).map lib.read }

theorem name_of_headed {h : String × String}
    (mem : h ∈ (headed lib m sender messageId now).headers) : h.1 ∈ ownNames := by
  obtain ⟨own, listed, rfl⟩ := List.mem_map.mp mem
  exact name_of_ownHeaders (h := own) listed

theorem headed_nodup :
    ((headed lib m sender messageId now).headers.map fun h => lowered h.1).Nodup := by
  have own := @ownHeaders_nodup lib m sender messageId now
  rwa [headed, List.map_map]

theorem setContent_headed (content : Content) :
    (headed lib m sender messageId now).setContent content =
      .ok { headed lib m sender messageId now with content := some content.inLines } := by
  have untyped : ∀ name ∈ ownNames, lowered name ≠ lowered "content-type" := by decide
  have kept : ∀ name ∈ ownNames, startsWith "content-" (lowered name) = false := by decide
  have absent : (headed lib m sender messageId now).get? "content-type" = none :=
    EmailMessage.get?_eq_none.mpr fun h mem => untyped h.1 (name_of_headed mem)
  have all : (headed lib m sender messageId now).headers.filter
      (fun h => !startsWith "content-" (lowered h.1)) =
        (headed lib m sender messageId now).headers :=
    List.filter_eq_self.mpr fun h mem => by rw [kept h.1 (name_of_headed mem)]; rfl
  simp [EmailMessage.setContent, EmailMessage.maintype, absent, all]

/-- The message can be built exactly if its sender can be written and the library takes
each of its headers. -/
theorem buildMime_eq_ok (plain : m.headers = Table.empty) {mime : EmailMessage} :
    buildMime lib m messageId now = .ok mime ↔
      ∃ sender, fromHeader lib m.fromName m.fromAddress = .ok sender ∧
        (∀ h ∈ ownHeaders lib m sender messageId now, lib.Takes h.1 h.2) ∧
        mime = { headed lib m sender messageId now with
          content := some (contentOf m.html m.text).inLines } := by
  rw [buildMime_eq _ _ _ _ plain]
  cases written : fromHeader lib m.fromName m.fromAddress with
  | error e => simp [bind, Except.bind]
  | ok sender =>
      have spec {mime'} := @EmailMessage.foldlM_set lib mime'
        (ownHeaders lib m sender messageId now) {} ownHeaders_nodup
      simp only [List.nil_append] at spec
      simp only [bind, Except.bind, Except.ok.injEq, exists_eq_left']
      cases set : (ownHeaders lib m sender messageId now).foldlM
          (fun mime h => mime.set lib h.1 h.2) ({} : EmailMessage) with
      | error e =>
          simp only [reduceCtorEq, false_iff]
          rintro ⟨taken, _⟩
          cases set.symm.trans (spec.mpr ⟨taken, rfl⟩)
      | ok next =>
          obtain ⟨taken, rfl⟩ := spec.mp set
          have ends := @setContent_headed lib m sender messageId now (contentOf m.html m.text)
          rw [headed] at ends
          simp only [ends, Except.ok.injEq]
          exact ⟨fun same => ⟨taken, same.symm⟩, fun ⟨_, same⟩ => same.symm⟩

/-! What such a message shows. -/

variable {content : Option Content}

theorem get?_own {name value : String}
    (mem : (name, value) ∈ ownHeaders lib m sender messageId now) (taken : lib.Takes name value) :
    EmailMessage.get? { headed lib m sender messageId now with content := content } name =
      lib.parse name value := by
  obtain ⟨read, parsed⟩ := Option.isSome_iff_exists.mp taken.2
  refine (EmailMessage.get?_of_mem headed_nodup (List.mem_map_of_mem mem)).trans ?_
  simp [parsed]

theorem get?_not_own {name : String} (own : name ∈ ownNames)
    (absent : ∀ value, (name, value) ∉ ownHeaders lib m sender messageId now) :
    EmailMessage.get? { headed lib m sender messageId now with content := content } name =
      none := by
  refine EmailMessage.get?_eq_none.mpr fun h mem same => ?_
  obtain ⟨own', listed, rfl⟩ := List.mem_map.mp mem
  have names : (ownNames.map lowered).Nodup := by decide
  have eq : own'.1 = name := List.inj_on_of_nodup_map names (name_of_ownHeaders listed) own same
  exact absent own'.2 (eq ▸ listed)

theorem filter_ne_empty (v : Option String) :
    v.filter (· ≠ "") = if orEmpty v = "" then none else some (orEmpty v) := by
  cases v with
  | none => rfl
  | some s => by_cases h : s = "" <;> simp [orEmpty, h]

variable (content) in
/-- Each header shows what the library reads its value as. -/
theorem get?_headed (taken : ∀ h ∈ ownHeaders lib m sender messageId now, lib.Takes h.1 h.2) :
    let mime : EmailMessage := { headed lib m sender messageId now with content := content }
    mime.get? "From" = lib.parse "From" sender ∧
      mime.get? "To" = lib.parse "To" (", ".intercalate m.to) ∧
      (mime.get? "Cc" = if m.cc.isEmpty then none else lib.parse "Cc" (", ".intercalate m.cc)) ∧
      (mime.get? "Reply-To" = (m.replyTo.filter (· ≠ "")).bind (lib.parse "Reply-To")) ∧
      mime.get? "Subject" = (m.subject.filter (· ≠ "")).bind (lib.parse "Subject") := by
  have own {name value : String} (mem : (name, value) ∈ ownHeaders lib m sender messageId now) :=
    @get?_own lib m sender messageId now content name value mem (taken _ mem)
  dsimp only
  rw [filter_ne_empty, filter_ne_empty]
  refine ⟨own (by simp [ownHeaders]), own (by simp [ownHeaders]), ?_, ?_, ?_⟩
  · split
    · rename_i absent
      exact get?_not_own (by decide) fun value => by simp [ownHeaders, absent]
    · rename_i given
      exact own (by simp [ownHeaders, given])
  · split
    · rename_i absent
      exact get?_not_own (by decide) fun value => by simp [ownHeaders, absent]
    · rename_i given
      exact own (by simp [ownHeaders, given])
  · split
    · rename_i absent
      exact get?_not_own (by decide) fun value => by simp [ownHeaders, absent]
    · rename_i given
      exact own (by simp [ownHeaders, given])

end Own

namespace Sample

/-- A library that reads every header as it is set, and the date as one of a zone. -/
def library : MailLibrary where
  encodeWord _ := "=?utf-8?q?=C3=84?="
  formatdate _ := "Thu, 01 Jan 1970 00:00:00 GMT"
  parse name value := some (if name = "Date" then "Thu, 01 Jan 1970 00:00:00 +0000" else value)
  encodeWord_unbroken _ := by decide
  formatdate_oneLine _ := by decide
  formatdate_parsed _ := rfl

end Sample
end Emaild
