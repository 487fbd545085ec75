import Mathlib.Data.List.Nodup
import Emaild.Text.Replace

/-!
Texts in which reserved characters stand as codes that begin with a mark, and what comes of
replacing one code after the other by the character it stands for.
-/
namespace Text

/-- The codes of the reserved characters. -/
abbrev Codes := List (Char × List Char)

def encodeChar (codes : Codes) (c : Char) : List Char := (codes.lookup c).getD [c]

def encode (codes : Codes) (text : List Char) : List Char := text.flatMap (encodeChar codes)

namespace Codes

def reserved (codes : Codes) : List Char := codes.map Prod.fst

/-- Codes can be told apart: each begins with the mark and has neither the mark nor a
reserved character behind it, and none begins with another. -/
structure Marked (mark : Char) (codes : Codes) : Prop where
  marked : ∀ e ∈ codes, e.2.head? = some mark ∧ mark ∉ e.2.tail
  plain : ∀ e ∈ codes, ∀ x ∈ e.2.tail, x ∉ codes.reserved
  apart : codes.Pairwise fun e f => ¬ e.2 <+: f.2 ∧ ¬ f.2 <+: e.2
  distinct : codes.reserved.Nodup

theorem Marked.code {mark c : Char} {code : List Char} {codes : Codes} (h : Marked mark codes)
    (mem : (c, code) ∈ codes) : ∃ tail, code = mark :: tail ∧ mark ∉ tail := by
  obtain ⟨begins, once⟩ := h.marked _ mem
  obtain ⟨tail, same⟩ := List.head?_eq_some_iff.mp begins
  refine ⟨tail, same, fun mem => once ?_⟩
  rw [same]
  exact mem

theorem Marked.tail {mark : Char} {e : Char × List Char} {codes : Codes}
    (h : Marked mark (e :: codes)) : Marked mark codes where
  marked f mem := h.marked f (List.mem_cons_of_mem e mem)
  plain f mem x listed := fun known =>
    h.plain f (List.mem_cons_of_mem e mem) x listed (List.mem_cons_of_mem e.1 known)
  apart := (List.pairwise_cons.mp h.apart).2
  distinct := (List.nodup_cons.mp h.distinct).2

end Codes

section Encode
variable {mark c : Char} {code replacement : List Char} {codes : Codes}

@[simp] theorem encode_nil : encode codes [] = [] := rfl

@[simp] theorem encode_cons (x : Char) (text : List Char) :
    encode codes (x :: text) = encodeChar codes x ++ encode codes text := rfl

theorem encode_append (text text' : List Char) :
    encode codes (text ++ text') = encode codes text ++ encode codes text' := List.flatMap_append

theorem encode_no_codes (text : List Char) : encode [] text = text := by
  induction text with
  | nil => rfl
  | cons x text ih => exact congrArg (x :: ·) ih

theorem encodeChar_of_not_reserved (free : c ∉ codes.reserved) : encodeChar codes c = [c] := by
  have absent : codes.lookup c = none := by
    rw [List.lookup_eq_none_iff]
    intro e mem
    rw [bne_iff_ne]
    rintro rfl
    exact free (List.mem_map_of_mem mem)
  rw [encodeChar, absent]
  rfl

theorem encodeChar_cases (codes : Codes) (x : Char) :
    (x, encodeChar codes x) ∈ codes ∨ x ∉ codes.reserved ∧ encodeChar codes x = [x] := by
  by_cases free : x ∈ codes.reserved
  · left
    cases found : codes.lookup x with
    | none =>
        obtain ⟨e, mem, rfl⟩ := List.mem_map.mp free
        have other := List.lookup_eq_none_iff.mp found e mem
        simp at other
    | some code =>
        obtain ⟨before, after, rfl, _⟩ := List.lookup_eq_some_iff.mp found
        rw [encodeChar, found]
        exact List.mem_append_right _ List.mem_cons_self
  · exact .inr ⟨free, encodeChar_of_not_reserved free⟩

theorem encodeChar_head (code : List Char) : encodeChar ((c, code) :: codes) c = code := by
  simp [encodeChar]

theorem encodeChar_tail {x : Char} (other : x ≠ c) :
    encodeChar ((c, code) :: codes) x = encodeChar codes x := by
  simp [encodeChar, List.lookup_cons, beq_eq_false_iff_ne.mpr other]

theorem encode_of_not_reserved {text : List Char} (free : ∀ x ∈ text, x ∉ codes.reserved) :
    encode codes text = text := by
  induction text with
  | nil => rfl
  | cons x text ih =>
      obtain ⟨first, rest⟩ := List.forall_mem_cons.mp free
      rw [encode_cons, encodeChar_of_not_reserved first, ih rest]
      rfl

/-- A character of an encoded text is one of a code, or one of the text that has no code. -/
theorem mem_encode {x : Char} {text : List Char} (mem : x ∈ encode codes text) :
    (∃ e ∈ codes, x ∈ e.2) ∨ x ∈ text ∧ x ∉ codes.reserved := by
  obtain ⟨y, listed, mem⟩ := List.mem_flatMap.mp mem
  rcases encodeChar_cases codes y with known | ⟨free, single⟩
  · exact .inl ⟨_, known, mem⟩
  · rw [single, List.mem_singleton] at mem
    exact .inr (mem ▸ ⟨listed, free⟩)

/-- What begins an encoded text and has no mark begins the text itself. -/
theorem prefix_of_encode (marked : codes.Marked mark) {head text : List Char}
    (unmarked : mark ∉ head) (found : head <+: encode codes text) : head <+: text := by
  induction head generalizing text with
  | nil => exact List.nil_prefix
  | cons y head ih =>
      cases text with
      | nil => cases List.prefix_nil.mp found
      | cons x text =>
          obtain ⟨first, rest⟩ := not_or.mp (List.mem_cons.not.mp unmarked)
          rcases encodeChar_cases codes x with mem | ⟨_, single⟩
          · obtain ⟨tail, same, _⟩ := marked.code mem
            rw [encode_cons, same, List.cons_append, List.cons_prefix_cons] at found
            exact absurd found.1.symm first
          · rw [encode_cons, single, List.singleton_append, List.cons_prefix_cons] at found
            exact List.cons_prefix_cons.mpr ⟨found.1, ih rest found.2⟩

end Encode

namespace Rewrites
variable {mark c : Char} {pattern code replacement rest out text text' : List Char} {codes : Codes}

theorem keep_char {x : Char} (begins : pattern.head? = some mark) (other : x ≠ mark)
    (later : Rewrites pattern replacement rest out) :
    Rewrites pattern replacement (x :: rest) (x :: out) := by
  refine .kept (fun found => other ?_) later
  obtain ⟨tail, rfl⟩ := List.head?_eq_some_iff.mp begins
  exact (List.cons_prefix_cons.mp found).1.symm

/-- A code that the pattern cannot be confused with is kept. -/
theorem keep_code (begins : pattern.head? = some mark)
    (marked : code.head? = some mark ∧ mark ∉ code.tail)
    (apart : ¬ pattern <+: code ∧ ¬ code <+: pattern)
    (later : Rewrites pattern replacement rest out) :
    Rewrites pattern replacement (code ++ rest) (code ++ out) := by
  refine later.keep fun before after same nonempty found => ?_
  cases before with
  | nil =>
      rw [same, List.nil_append] at apart
      rcases List.prefix_or_prefix_of_prefix found (List.prefix_append after rest) with left | right
      · exact apart.1 left
      · exact apart.2 right
  | cons x before =>
      obtain ⟨y, after, rfl⟩ := List.exists_cons_of_ne_nil nonempty
      obtain ⟨tail, rfl⟩ := List.head?_eq_some_iff.mp begins
      have isMark := (List.cons_prefix_cons.mp found).1
      refine marked.2 ?_
      rw [same, List.cons_append, List.tail_cons, isMark]
      exact List.mem_append_right _ List.mem_cons_self

/-- The mark is reserved, and the pattern is none of the codes: the text is kept. -/
theorem encode_foreign (marked : codes.Marked mark) (isReserved : mark ∈ codes.reserved)
    (begins : pattern.head? = some mark)
    (apart : ∀ e ∈ codes, ¬ pattern <+: e.2 ∧ ¬ e.2 <+: pattern) :
    Rewrites pattern replacement (encode codes text) (encode codes text) := by
  induction text with
  | nil => exact .done
  | cons x text ih =>
      rcases encodeChar_cases codes x with mem | ⟨free, single⟩
      · exact keep_code begins (marked.marked _ mem) (apart _ mem) ih
      · rw [encode_cons, single]
        exact keep_char begins (ne_of_mem_of_not_mem isReserved free).symm ih

/-- The code of the mark: the marks are back, and nothing else has changed. -/
theorem encode_mark (marked : Codes.Marked mark ((mark, code) :: codes)) :
    Rewrites code [mark] (encode ((mark, code) :: codes) text) (encode codes text) := by
  have begins := (marked.marked _ List.mem_cons_self).1
  have apart := (List.pairwise_cons.mp marked.apart).1
  have free := (List.nodup_cons.mp marked.distinct).1
  induction text with
  | nil => exact .done
  | cons x text ih =>
      by_cases isMark : x = mark
      · subst isMark
        rw [encode_cons, encodeChar_head, encode_cons, encodeChar_of_not_reserved free]
        exact .replaced ih
      · rw [encode_cons, encodeChar_tail isMark, encode_cons]
        rcases encodeChar_cases codes x with mem | ⟨_, single⟩
        · exact keep_code begins (marked.tail.marked _ mem) (apart _ mem) ih
        · rw [single]
          exact keep_char begins isMark ih

/-- Where the mark is not reserved, a code is undone in the encoded text, and the text itself
is rewritten in the same way. -/
theorem encode_plain (marked : Codes.Marked mark ((c, code) :: codes))
    (unreserved : mark ∉ Codes.reserved ((c, code) :: codes))
    (replaced : Rewrites code [c] text text') :
    Rewrites code [c] (encode ((c, code) :: codes) text) (encode codes text') := by
  have apart := (List.pairwise_cons.mp marked.apart).1
  have free := (List.nodup_cons.mp marked.distinct).1
  have begins := (marked.marked _ List.mem_cons_self).1
  have plain := marked.plain _ List.mem_cons_self
  obtain ⟨tail, isCode, once⟩ := marked.code List.mem_cons_self
  induction replaced with
  | done => exact .done
  | @kept x rest out unlike later ih =>
      by_cases same : x = c
      · subst same
        rw [encode_cons, encodeChar_head, encode_cons, encodeChar_of_not_reserved free]
        exact .replaced ih
      · rw [encode_cons, encodeChar_tail same, encode_cons]
        rcases encodeChar_cases codes x with mem | ⟨_, single⟩
        · exact keep_code begins (marked.tail.marked _ mem) (apart _ mem) ih
        · rw [single]
          refine .kept (fun found => unlike ?_) ih
          rw [isCode] at found ⊢
          obtain ⟨isMark, found⟩ := List.cons_prefix_cons.mp found
          rw [isCode] at marked
          exact List.cons_prefix_cons.mpr ⟨isMark, prefix_of_encode marked once found⟩
  | @replaced rest out later ih =>
      have literal : encode ((c, code) :: codes) code = code := by
        refine encode_of_not_reserved fun x mem => ?_
        rw [isCode] at mem plain
        rcases List.mem_cons.mp mem with rfl | mem
        · exact unreserved
        · exact plain x mem
      rw [encode_append, literal, List.singleton_append, encode_cons,
        encodeChar_of_not_reserved free]
      exact .replaced ih

end Rewrites

section Decode
variable {mark c : Char} {code : List Char} {codes : Codes}

/-- What replaces the codes by their characters. -/
def Codes.pairs (codes : Codes) : List (String × String) :=
  codes.map fun e => (String.ofList e.2, String.singleton e.1)

theorem replace_encode_mark (marked : Codes.Marked mark ((mark, code) :: codes))
    (text : List Char) :
    (String.ofList (encode ((mark, code) :: codes) text)).replace (String.ofList code)
      (String.singleton mark) = String.ofList (encode codes text) := by
  obtain ⟨tail, rfl, _⟩ := marked.code List.mem_cons_self
  refine replace_eq (fun empty => ?_) ?_
  · simpa using congrArg String.toList empty
  · simpa only [String.toList_ofList, String.toList_singleton] using Rewrites.encode_mark marked

/-- Replacing the codes in the encoded text is replacing them in the text. -/
theorem replaceEach_encode (marked : codes.Marked mark) (unreserved : mark ∉ codes.reserved)
    (text : String) :
    replaceEach codes.pairs (String.ofList (encode codes text.toList)) =
      replaceEach codes.pairs text := by
  induction codes generalizing text with
  | nil => rw [encode_no_codes, String.ofList_toList]
  | cons e codes ih =>
      obtain ⟨c, code⟩ := e
      obtain ⟨tail, isCode, _⟩ := marked.code List.mem_cons_self
      have nonempty : String.ofList code ≠ "" := fun empty => by
        simpa [isCode] using congrArg String.toList empty
      have replaced := rewrites_replace text nonempty (String.singleton c)
      rw [String.toList_ofList, String.toList_singleton] at replaced
      have step : (String.ofList (encode ((c, code) :: codes) text.toList)).replace
          (String.ofList code) (String.singleton c) = String.ofList
            (encode codes (text.replace (String.ofList code) (String.singleton c)).toList) := by
        refine replace_eq nonempty ?_
        rw [String.toList_ofList, String.toList_ofList, String.toList_singleton]
        exact Rewrites.encode_plain marked unreserved replaced
      rw [Codes.pairs, List.map_cons, replaceEach_cons, replaceEach_cons, step]
      exact ih marked.tail (fun listed => unreserved (List.mem_cons_of_mem c listed)) _

end Decode
end Text
