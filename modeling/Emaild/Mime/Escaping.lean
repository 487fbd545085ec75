import Mathlib.Data.Bool.AllAny
import Emaild.Mime.Fallback
import Emaild.Text.Encoding

/-!
The round trip of a text that is escaped for HTML and converted back. The entities are undone
one after the other, the ampersand before the others.
-/
namespace Emaild
open Text HtmlToText

/-- The entities that the conversion knows for the reserved characters of HTML. -/
def htmlCodes : Codes := [('&', "&amp;".toList), ('<', "&lt;".toList), ('>', "&gt;".toList),
  ('\x22', "&quot;".toList), ('\x27', "&#39;".toList)]

def escapeHtml (text : String) : String := .ofList (encode htmlCodes text.toList)

/-- What is undone after the ampersands are back. -/
def laterCodes : Codes := htmlCodes.tail

theorem entities_eq : entities = ("&nbsp;", " ") :: ("&amp;", "&") :: laterCodes.pairs := by
  decide +kernel

theorem htmlCodes_marked : htmlCodes.Marked '&' where
  marked := by decide
  plain e mem := by
    have each : htmlCodes.all (fun e => e.2.tail.all fun x => decide (x ∉ htmlCodes.reserved)) := by
      decide
    exact List.all_iff_forall_prop.mp (List.all_eq_true.mp each e mem)
  apart := by decide
  distinct := by decide

theorem laterCodes_marked : laterCodes.Marked '&' := htmlCodes_marked.tail

/-- The escaped text is undone to what the text itself is undone to. -/
theorem replaceEach_entities (text : String) :
    replaceEach entities (escapeHtml text) = replaceEach laterCodes.pairs text := by
  have spaces : (escapeHtml text).replace "&nbsp;" " " = escapeHtml text := by
    refine replace_eq (by decide) ?_
    rw [escapeHtml, @String.toList_ofList (encode htmlCodes text.toList)]
    refine Rewrites.encode_foreign htmlCodes_marked ?_ ?_ ?_ <;> decide
  have ampersands : (escapeHtml text).replace "&amp;" "&" =
      .ofList (encode laterCodes text.toList) :=
    replace_encode_mark htmlCodes_marked text.toList
  rw [entities_eq, replaceEach_cons, spaces, replaceEach_cons, ampersands]
  exact replaceEach_encode laterCodes_marked (by decide) text

theorem untagged_escapeHtml (text : String) :
    ∀ x ∈ (escapeHtml text).toList, Regex.foldCase x ≠ Regex.foldCase '<' := by
  intro x mem folds
  have isTag : x = '<' := Regex.foldCase_eq folds (by decide)
  subst isTag
  rw [escapeHtml, String.toList_ofList] at mem
  rcases mem_encode mem with coded | ⟨_, free⟩
  · revert coded
    decide
  · exact free (by decide)

theorem htmlToText_escapeHtml (text : String) :
    htmlToText (escapeHtml text) =
      strip (substitute blankLines "\n\n" (replaceEach laterCodes.pairs text)) := by
  rw [htmlToText_of_untagged (untagged_escapeHtml text), replaceEach_entities]

/-- The text names none of the entities that are undone after the ampersand. -/
def NamesNoEntity (text : String) : Prop :=
  ∀ entity ∈ ["&lt;", "&gt;", "&quot;", "&#39;"], ¬ entity.toList <:+: text.toList

theorem namesNoEntity_iff {text : String} :
    NamesNoEntity text ↔ ∀ e ∈ laterCodes.pairs, ¬ e.1.toList <:+: text.toList := by
  have names : laterCodes.pairs.map Prod.fst = ["&lt;", "&gt;", "&quot;", "&#39;"] := by decide
  rw [NamesNoEntity, ← names, List.forall_mem_map]

/-- An entity that the text names is undone as well, and what comes of it is shorter. -/
theorem utf8ByteSize_escapeHtml_lt {text : String} (names : ¬ NamesNoEntity text) :
    (htmlToText (escapeHtml text)).utf8ByteSize < text.utf8ByteSize := by
  rw [namesNoEntity_iff] at names
  push Not at names
  rw [htmlToText_escapeHtml]
  exact Nat.lt_of_le_of_lt (utf8ByteSize_blankLines_le _)
    (utf8ByteSize_replaceEach_lt (by decide) names)

theorem substitute_blankLines {text : String} (unbroken : ¬ "\n\n\n".toList <:+: text.toList) :
    substitute blankLines "\n\n" text = text := by
  refine substitute_of_unfit _ fun xs tail fits => unbroken ?_
  rw [blankLines, Regex.fits_word_seq, Regex.fits_word] at fits
  have within := Regex.prefix_of_folded (List.all_iff_forall_prop.mp (by decide)) fits.1
  exact within.isInfix.trans tail.isInfix

/-- The characters survive the way there and back where no entity is named but that of
the ampersand and that of the space. -/
theorem htmlToText_escapeHtml_iff (text : String) (tight : strip text = text)
    (unbroken : ¬ "\n\n\n".toList <:+: text.toList) :
    htmlToText (escapeHtml text) = text ↔ NamesNoEntity text := by
  constructor
  · intro same
    by_contra names
    have shorter := utf8ByteSize_escapeHtml_lt names
    rw [same] at shorter
    exact Nat.lt_irrefl _ shorter
  · intro names
    have kept := replaceEach_of_absent (by decide) (namesNoEntity_iff.mp names)
    rw [htmlToText_escapeHtml, kept, substitute_blankLines unbroken, tight]

theorem comparison_survives : htmlToText (escapeHtml "a < b & \"c\"") = "a < b & \"c\"" :=
  (htmlToText_escapeHtml_iff _ (by decide) (by decide)).mpr (by unfold NamesNoEntity; decide)

theorem named_entity_is_undone :
    ¬ ∀ text : String, strip text = text → ¬ "\n\n\n".toList <:+: text.toList →
      htmlToText (escapeHtml text) = text := by
  intro survives
  have shorter := @utf8ByteSize_escapeHtml_lt "&lt;" (by unfold NamesNoEntity; decide)
  rw [survives "&lt;" (by decide) (by decide)] at shorter
  exact Nat.lt_irrefl _ shorter

end Emaild
