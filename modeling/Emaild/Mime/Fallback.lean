import Emaild.Ingest
import Emaild.Mime
import Emaild.Text.Language
import Emaild.Text.Replace
import Emaild.Worker

/-!
The size of the parts that a message is built from, and the plain text that stands in for
a message of HTML alone. The estimate that a request is checked against leaves it out.
-/
namespace Emaild
open Relational Text

namespace HtmlToText
open Regex

/-! No step of the conversion makes the text larger. -/

theorem utf8ByteSize_substitute_le {r : Regex} {replacement : String} (text : String)
    (smaller : ∀ w ∈ language r, replacement.utf8ByteSize ≤ String.utf8Len w) :
    (substitute r replacement text).utf8ByteSize ≤ text.utf8ByteSize := by
  have go (n : Nat) : ∀ xs,
      String.utf8Len (substitute.go r replacement n xs) ≤ String.utf8Len xs := by
    induction n with
    | zero => exact fun xs => Nat.le_of_eq (by rw [substitute.go.eq_def])
    | succ n ih =>
        intro xs
        cases xs with
        | nil => exact Nat.le_of_eq rfl
        | cons x xs =>
            rw [substitute.go]
            split
            · rename_i after matched
              obtain ⟨w, mem, same⟩ := mem_rest.mp (List.mem_of_head? matched)
              rw [same, String.utf8Len_append, String.utf8Len_append]
              have first := smaller w mem
              rw [← String.ofList_toList (s := replacement), String.utf8ByteSize_ofList] at first
              exact Nat.add_le_add first (ih after)
            · exact Nat.add_le_add_right (ih xs) _
  rw [substitute, String.utf8ByteSize_ofList]
  refine (go _ _).trans_eq ?_
  rw [← String.utf8ByteSize_ofList, String.ofList_toList]

theorem closed_suffix {tag xs after : List Char} (found : closed tag xs = some after) :
    after <:+ xs := by
  induction xs with
  | nil => cases found
  | cons x xs ih =>
      dsimp only [closed] at found
      split at found
      · cases found
        exact List.drop_suffix _ _
      · exact (ih found).trans (List.suffix_cons x xs)

theorem element_suffix {xs after : List Char} (found : element xs = some after) : after <:+ xs := by
  obtain ⟨start, _, found⟩ := List.exists_of_findSome?_eq_some found
  obtain ⟨inside, matched, found⟩ := Option.bind_eq_some_iff.mp found
  obtain ⟨w, _, rfl⟩ := mem_rest.mp (List.mem_of_head? matched)
  exact (closed_suffix found).trans (List.suffix_append w inside)

theorem utf8ByteSize_withoutElements_le (text : String) :
    (withoutElements text).utf8ByteSize ≤ text.utf8ByteSize := by
  have go (n : Nat) : ∀ xs, String.utf8Len (withoutElements.go n xs) ≤ String.utf8Len xs := by
    induction n with
    | zero => exact fun xs => Nat.le_of_eq (by rw [withoutElements.go.eq_def])
    | succ n ih =>
        intro xs
        cases xs with
        | nil => exact Nat.le_of_eq rfl
        | cons x xs =>
            rw [withoutElements.go]
            split
            · rename_i after found
              exact (ih after).trans (String.utf8Len_le_of_suffix (element_suffix found))
            · exact Nat.add_le_add_right (ih xs) _
  rw [withoutElements, String.utf8ByteSize_ofList]
  refine (go _ _).trans_eq ?_
  rw [← String.utf8ByteSize_ofList, String.ofList_toList]

theorem length_le_utf8Len (xs : List Char) : xs.length ≤ String.utf8Len xs := by
  induction xs with
  | nil => exact Nat.le_refl 0
  | cons x xs ih => exact Nat.add_le_add ih (Char.utf8Size_pos x)

/-- A match that begins with a literal is at least as long. -/
theorem length_le_of_mem_language {literal : String} {r : Regex} {w : List Char}
    (mem : w ∈ language (seq (word literal) r)) : literal.toList.length ≤ String.utf8Len w := by
  obtain ⟨u, hu, v, _, rfl⟩ := Language.mem_mul.mp mem
  have left : [] ∈ rest (word literal) u := mem_rest.mpr ⟨u, hu, (List.append_nil u).symm⟩
  rw [rest_word] at left
  split at left
  · rename_i fits
    have short := fits.length_le
    rw [folded, List.length_map, List.length_map] at short
    refine short.trans ((length_le_utf8Len u).trans ?_)
    rw [String.utf8Len_append]
    exact Nat.le_add_right ..
  · cases left

theorem utf8ByteSize_entities_le (text : String) :
    (replaceEach entities text).utf8ByteSize ≤ text.utf8ByteSize :=
  utf8ByteSize_replaceEach_le text (by decide)

end HtmlToText

open HtmlToText in
theorem htmlToText_eq (html : String) :
    htmlToText html = strip (substitute blankLines "\n\n" (replaceEach entities
      (substitute anyTag "" (substitute blockEnd "\n"
        (substitute lineBreakTag "\n" (withoutElements html)))))) := rfl

theorem utf8ByteSize_strip_le (text : String) : (strip text).utf8ByteSize ≤ text.utf8ByteSize := by
  have within := String.utf8Len_le_of_infix (strip_within text)
  rwa [← String.utf8ByteSize_ofList, ← String.utf8ByteSize_ofList, String.ofList_toList,
    String.ofList_toList] at within

open HtmlToText in
theorem utf8ByteSize_blankLines_le (text : String) :
    (strip (substitute blankLines "\n\n" text)).utf8ByteSize ≤ text.utf8ByteSize := by
  refine (utf8ByteSize_strip_le _).trans (utf8ByteSize_substitute_le _ fun w mem => ?_)
  exact Nat.le_trans (by decide) (length_le_of_mem_language mem)

open HtmlToText in
/-- The stand-in for HTML is no larger than the HTML. -/
theorem utf8ByteSize_htmlToText_le (html : String) :
    (htmlToText html).utf8ByteSize ≤ html.utf8ByteSize := by
  refine (utf8ByteSize_blankLines_le _).trans ?_
  refine (utf8ByteSize_entities_le _).trans
    ((utf8ByteSize_substitute_le _ fun w mem => ?_).trans ?_)
  · exact Nat.zero_le _
  refine (utf8ByteSize_substitute_le _ fun w mem => ?_).trans
    ((utf8ByteSize_substitute_le _ fun w mem => ?_).trans (utf8ByteSize_withoutElements_le html))
  · exact Nat.le_trans (by decide) (length_le_of_mem_language mem)
  · exact Nat.le_trans (by decide) (length_le_of_mem_language mem)

/-! What a text without markup is converted to. -/

namespace HtmlToText
open Regex

/-- The text has no tag, no entity, no line break and no white space. -/
def Unmarked (text : String) : Prop :=
  ∀ c ∈ text.toList, foldCase c ≠ foldCase '<' ∧ foldCase c ≠ foldCase '\n' ∧ c ≠ '&' ∧
    isSpace c = false

theorem rest_word_of_head {literal : String} {d x : Char} {xs : List Char}
    (first : literal.toList.head? = some d) (other : foldCase x ≠ foldCase d) :
    rest (word literal) (x :: xs) = [] := by
  rw [rest_word, if_neg]
  obtain ⟨tail, same⟩ := List.head?_eq_some_iff.mp first
  rw [folded, same, List.map_cons, List.map_cons, List.cons_prefix_cons]
  exact fun h => other h.1.symm

theorem substitute_of_unfit {r : Regex} (replacement : String) {text : String}
    (unfit : ∀ xs, xs <:+ text.toList → ¬ r.Fits xs) : substitute r replacement text = text := by
  have go (n : Nat) : ∀ xs : List Char, (∀ ys, ys <:+ xs → ¬ r.Fits ys) →
      substitute.go r replacement n xs = xs := by
    induction n with
    | zero => exact fun xs _ => by rw [substitute.go.eq_def]
    | succ n ih =>
        intro xs unfit
        cases xs with
        | nil => rfl
        | cons x xs =>
            rw [substitute.go, not_not.mp (unfit _ List.suffix_rfl)]
            refine congrArg (x :: ·) (ih xs fun ys tail => ?_)
            exact unfit ys (tail.trans (List.suffix_cons x xs))
  rw [substitute, go _ _ unfit, String.ofList_toList]

theorem substitute_absent {literal : String} {d : Char} {r : Regex} (replacement : String)
    {text : String} (first : literal.toList.head? = some d)
    (absent : ∀ x ∈ text.toList, foldCase x ≠ foldCase d) :
    substitute (seq (word literal) r) replacement text = text := by
  refine substitute_of_unfit replacement fun xs tail => ?_
  rw [fits_word_seq]
  rintro ⟨fits, _⟩
  cases xs with
  | nil =>
      obtain ⟨rest, same⟩ := List.head?_eq_some_iff.mp first
      rw [fits_word, folded, same] at fits
      cases List.prefix_nil.mp fits
  | cons x xs => exact fits (rest_word_of_head first (absent x (tail.subset List.mem_cons_self)))

theorem withoutElements_absent {text : String}
    (absent : ∀ x ∈ text.toList, foldCase x ≠ foldCase '<') :
    withoutElements text = text := by
  have go (n : Nat) : ∀ xs : List Char, (∀ x ∈ xs, foldCase x ≠ foldCase '<') →
      withoutElements.go n xs = xs := by
    induction n with
    | zero => exact fun xs _ => by rw [withoutElements.go.eq_def]
    | succ n ih =>
        intro xs absent
        cases xs with
        | nil => rfl
        | cons x xs =>
            obtain ⟨other, absent⟩ := List.forall_mem_cons.mp absent
            have plain : element (x :: xs) = none := by
              refine List.findSome?_eq_none_iff.mpr fun start mem => ?_
              have opening : start.toList.head? = some '<' := by
                rcases List.mem_pair.mp mem with rfl | rfl <;> rfl
              rw [rest_word_of_head opening other]
              rfl
            rw [withoutElements.go, plain]
            exact congrArg (x :: ·) (ih xs absent)
  rw [withoutElements, go _ _ absent, String.ofList_toList]

theorem entities_absent {text : String} (absent : ∀ x ∈ text.toList, x ≠ '&') :
    replaceEach entities text = text := by
  have marked : ∀ e ∈ entities, '&' ∈ e.1.toList := by decide
  refine replaceEach_of_absent (by decide) fun e mem found => ?_
  exact absent '&' (found.subset (marked e mem)) rfl

end HtmlToText

theorem strip_of_tight {text : String} (tight : ∀ x ∈ text.toList, isSpace x = false) :
    strip text = text := by
  have untouched (l : List Char) (h : ∀ x ∈ l, isSpace x = false) : l.dropWhile isSpace = l := by
    cases l with
    | nil => rfl
    | cons x l => rw [List.dropWhile_cons_of_neg (by simp [h x List.mem_cons_self])]
  rw [strip, rstrip, untouched _ tight, String.toList_ofList,
    untouched _ fun x mem => tight x (List.mem_reverse.mp mem), List.reverse_reverse,
    String.ofList_toList]

open HtmlToText in
/-- Without tags, the entities and the white space are what is converted. -/
theorem htmlToText_of_untagged {text : String}
    (untagged : ∀ x ∈ text.toList, Regex.foldCase x ≠ Regex.foldCase '<') :
    htmlToText text = strip (substitute blankLines "\n\n" (replaceEach entities text)) := by
  rw [htmlToText_eq, withoutElements_absent untagged, lineBreakTag,
    substitute_absent _ rfl untagged, blockEnd, substitute_absent _ rfl untagged, anyTag,
    substitute_absent _ rfl untagged]

open HtmlToText in
/-- A text without markup stands in for itself. -/
theorem htmlToText_of_unmarked {text : String} (unmarked : Unmarked text) :
    htmlToText text = text := by
  rw [htmlToText_of_untagged fun x mem => (unmarked x mem).1,
    entities_absent fun x mem => (unmarked x mem).2.2.1, blankLines,
    substitute_absent _ rfl fun x mem => (unmarked x mem).2.1,
    strip_of_tight fun x mem => (unmarked x mem).2.2.2]

/-! The estimate of a request. -/

/-- The UTF-8 size of the parts. -/
def Content.sizeBytes (content : Content) : Nat :=
  content.text.utf8ByteSize + (orEmpty content.html?).utf8ByteSize

def EmailMessage.bodySizeBytes (mime : EmailMessage) : Nat :=
  (mime.content.map Content.sizeBytes).getD 0

/-- What the estimate adds to the HTML and the text. -/
def SendEmailRequest.allowance (r : SendEmailRequest) : Nat :=
  (orEmpty r.subject).utf8ByteSize + (r.allRecipients.map fun a => a.utf8ByteSize + 8).sum +
    r.from.utf8ByteSize +
    ((r.headers.map fun h =>
      (h.rows.map fun (k, v) => s!"{k}: {v}\r\n".utf8ByteSize).sum).getD 0) + 2048

theorem estimatedSizeBytes_eq (r : SendEmailRequest) : r.estimatedSizeBytes =
    (orEmpty r.html).utf8ByteSize + (orEmpty r.text).utf8ByteSize + r.allowance := by
  simp only [SendEmailRequest.estimatedSizeBytes, SendEmailRequest.allowance, List.map_cons,
    List.map_nil, List.sum_cons, List.sum_nil]
  omega

/-- An empty part is left out of an alternative, and is the end of a line by itself. -/
theorem sizeBytes_contentOf_le (html : Option String) {text : Option String}
    (written : orEmpty text ≠ "") : (contentOf html text).inLines.sizeBytes ≤
      (orEmpty html).utf8ByteSize + (orEmpty text).utf8ByteSize + 2 := by
  have textLines := utf8ByteSize_endLines_le (orEmpty text)
  have htmlLines := utf8ByteSize_endLines_le (orEmpty html)
  have missing : (orEmpty none).utf8ByteSize = 0 := rfl
  unfold contentOf
  by_cases hasHtml : orEmpty html = ""
  · simp only [written, hasHtml, ne_eq, not_true_eq_false, and_false, if_false, Content.inLines,
      Content.sizeBytes, Content.text, Content.html?, missing]
    omega
  · simp only [written, hasHtml, ne_eq, not_false_eq_true, and_self, if_true, Content.inLines,
      Content.sizeBytes, Content.text, Content.html?]
    have given : orEmpty (some (endLines (orEmpty html))) = endLines (orEmpty html) := rfl
    rw [given]
    omega

/-- Without a text of its own, a message has its HTML and what stands in for it. -/
theorem sizeBytes_contentOf {html text : Option String} (bare : orEmpty text = "")
    (given : orEmpty html ≠ "") : (contentOf html text).inLines.sizeBytes =
      (endLines (htmlToText (orEmpty html))).utf8ByteSize +
        (endLines (orEmpty html)).utf8ByteSize := by
  unfold contentOf
  rw [if_neg fun both => both.1 bare, if_pos given]
  rfl

/-- What is built in the end has the content. -/
structure Fills (content : Content) (x : Except MimeError EmailMessage) : Prop where
  content_of : ∀ mime, x = .ok mime → mime.content = some content.inLines

namespace Fills
variable {content : Content}

theorem setContent (mime : EmailMessage) : Fills content (mime.setContent content) := by
  refine ⟨fun mime' set => ?_⟩
  unfold EmailMessage.setContent at set
  split at set
  · cases set
  · cases set
    rfl

theorem bind {α : Type} {x : Except MimeError α} {f : α → Except MimeError EmailMessage}
    (later : ∀ a, Fills content (f a)) : Fills content (x >>= f) := by
  refine ⟨fun mime run => ?_⟩
  obtain ⟨a, _, run⟩ := ok_of_bind_ok run
  exact (later a).content_of mime run

end Fills

/-- A message is built around the body that was asked for. -/
theorem fills_buildMime (lib : MailLibrary) (out : OutboundMessage) (messageId : String)
    (now : Time) : Fills (contentOf out.html out.text) (buildMime lib out messageId now) := by
  have ending (mime : EmailMessage) : Fills (contentOf out.html out.text) (do
      let mime ← mime.set lib "Message-ID" messageId
      let mime ← mime.set lib "Date" (lib.formatdate now)
      let mime ← out.headers.rows.foldlM (fun mime (key, value) =>
        if Protected key then pure mime else mime.set lib key value) mime
      mime.setContent (contentOf out.html out.text)) :=
    .bind fun _ => .bind fun _ => .bind fun mime => .setContent mime
  unfold buildMime
  refine .bind fun _ => .bind fun _ => .bind fun _ => ?_
  dsimp only
  -- each of the optional headers is set or passed over
  split <;> refine .bind fun _ => ?_ <;> split <;> refine .bind fun _ => ?_ <;> split <;>
    exact .bind ending

/-- The stand-in for the HTML, and what ending the lines of both adds, fit into what the
estimate adds. -/
def SendEmailRequest.FallbackFits (r : SendEmailRequest) : Prop :=
  (endLines (htmlToText (orEmpty r.html))).utf8ByteSize +
    (endLines (orEmpty r.html)).utf8ByteSize ≤ (orEmpty r.html).utf8ByteSize + r.allowance

theorem sizeBytes_le_iff (r : SendEmailRequest) :
    (contentOf r.html r.text).inLines.sizeBytes ≤ r.estimatedSizeBytes ↔
      orEmpty r.text ≠ "" ∨ r.FallbackFits := by
  rw [estimatedSizeBytes_eq]
  by_cases bare : orEmpty r.text = ""
  · have given := r.hasBody.resolve_right (not_not.mpr bare)
    have missing : "".utf8ByteSize = 0 := rfl
    rw [sizeBytes_contentOf bare given, SendEmailRequest.FallbackFits, bare, missing]
    simp
  · have parts := sizeBytes_contentOf_le r.html bare
    have spare : 2048 ≤ r.allowance := Nat.le_add_left 2048 _
    exact iff_of_true (by omega) (.inl bare)

section Estimate
variable (r : SendEmailRequest) {lib : MailLibrary} {out : OutboundMessage} {messageId : String}
  {now : Time} {mime : EmailMessage} (html : out.html = r.html) (text : out.text = r.text)
  (built : buildMime lib out messageId now = .ok mime)
include html text built

theorem bodySizeBytes_eq : mime.bodySizeBytes = (contentOf r.html r.text).inLines.sizeBytes := by
  rw [EmailMessage.bodySizeBytes, (fills_buildMime lib out messageId now).content_of mime built,
    html, text]
  rfl

/-- It covers the body of any request whose HTML has two bytes less than two kilobytes. -/
theorem bodySizeBytes_le_of_small (small : (orEmpty r.html).utf8ByteSize ≤ 2046) :
    mime.bodySizeBytes ≤ r.estimatedSizeBytes := by
  have standIn := utf8ByteSize_endLines_le (htmlToText (orEmpty r.html))
  have smaller := utf8ByteSize_htmlToText_le (orEmpty r.html)
  have ended := utf8ByteSize_endLines_le (orEmpty r.html)
  have spare : 2048 ≤ r.allowance := Nat.le_add_left 2048 _
  rw [bodySizeBytes_eq r html text built]
  refine (sizeBytes_le_iff r).mpr (.inr ?_)
  unfold SendEmailRequest.FallbackFits
  omega

end Estimate

namespace Sample

/-- HTML without a tag. -/
def page (n : Nat) : String := .ofList (List.replicate n 'x')

theorem page_size (n : Nat) : (page n).utf8ByteSize = n := by
  rw [page, String.utf8ByteSize_ofList]
  induction n with
  | zero => rfl
  | succ n ih =>
      rw [List.replicate_succ, String.utf8Len_cons, ih]
      rfl

theorem page_unmarked (n : Nat) : HtmlToText.Unmarked (page n) := by
  intro c mem
  rw [page, String.toList_ofList] at mem
  rw [List.eq_of_mem_replicate mem]
  decide

theorem page_lines (n : Nat) : endLines (page n) = page n ++ "\n" := by
  refine endLines_of_unbroken fun c mem => ?_
  rw [page, String.toList_ofList] at mem
  rw [List.eq_of_mem_replicate mem]
  rfl

theorem page_written {n : Nat} (positive : n ≠ 0) :
    orEmpty (some (page n)) ≠ "" ∨ orEmpty none ≠ "" := by
  refine .inl fun (empty : page n = "") => positive ?_
  rw [← page_size n, empty]
  rfl

theorem pageLetter_written : orEmpty (some (page 3000)) ≠ "" ∨ orEmpty none ≠ "" :=
  page_written (by decide)

/-- Three kilobytes of HTML, and no text. -/
def pageLetter : SendEmailRequest :=
  { letter "ann@example.net" [] with
    text := none, html := some (page 3000), hasBody := pageLetter_written }

/-- What the worker hands over for a letter to Ann. -/
def outboundLetter (r : SendEmailRequest) : OutboundMessage :=
  outboundOf (newMessage (principal mailbox) r ⟨mailbox, domain⟩ none ["ann@example.net"] [] []
    ⟨1, "A"⟩ 0) mailbox

theorem outboundLetter_built (r : SendEmailRequest) (untitled : r.subject = none)
    (direct : r.replyTo = none) : ∃ mime,
      buildMime library (outboundLetter r) "<email_A@shop.example>" 0 = .ok mime := by
  have «to» : (outboundLetter r).to = ["ann@example.net"] := rfl
  have replyTo : (outboundLetter r).replyTo = none := direct
  have subject : (outboundLetter r).subject = none := untitled
  refine ⟨_, (buildMime_eq_ok rfl).mpr ⟨"noreply@shop.example", rfl, ?_, rfl⟩⟩
  rw [ownHeaders_taken, «to», replyTo, subject]
  exact ⟨⟨by decide, rfl⟩, ⟨by decide, rfl⟩, fun copied => absurd rfl copied,
    fun given => absurd rfl given, fun given => absurd rfl given, by decide, rfl⟩

end Sample

open Sample

end Emaild
