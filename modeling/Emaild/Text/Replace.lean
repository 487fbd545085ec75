import Mathlib.Data.String.Basic

/-!
What `String.replace` makes of a text: occurrences of the pattern give way to the
replacement and everything between them is kept.
-/
namespace Text

/-- Some occurrences of the pattern are replaced, the rest is kept. -/
inductive Replacement (pattern replacement : String) : String → String → Prop
  | done : Replacement pattern replacement "" ""
  | kept (text : String) {rest out : String} (later : Replacement pattern replacement rest out) :
      Replacement pattern replacement (text ++ rest) (text ++ out)
  | replaced {rest out : String} (later : Replacement pattern replacement rest out) :
      Replacement pattern replacement (pattern ++ rest) (replacement ++ out)

/-- Every occurrence that is met from left to right is replaced. -/
inductive Rewrites (pattern replacement : List Char) : List Char → List Char → Prop
  | done : Rewrites pattern replacement [] []
  | kept {c : Char} {rest out : List Char} (unlike : ¬ pattern <+: c :: rest)
      (later : Rewrites pattern replacement rest out) :
      Rewrites pattern replacement (c :: rest) (c :: out)
  | replaced {rest out : List Char} (later : Rewrites pattern replacement rest out) :
      Rewrites pattern replacement (pattern ++ rest) (replacement ++ out)

namespace Rewrites
variable {pattern replacement rest out out' text : List Char}

/-- A stretch in which the pattern begins nowhere is kept. -/
theorem keep (later : Rewrites pattern replacement rest out)
    (unlike : ∀ before after, text = before ++ after → after ≠ [] → ¬ pattern <+: after ++ rest) :
    Rewrites pattern replacement (text ++ rest) (text ++ out) := by
  induction text with
  | nil => exact later
  | cons c text ih =>
      refine .kept (unlike [] (c :: text) rfl (List.cons_ne_nil c text)) (ih ?_)
      intro before after same nonempty
      exact unlike (c :: before) after (congrArg (c :: ·) same) nonempty

/-- There is one result. -/
theorem functional (nonempty : pattern ≠ []) (first : Rewrites pattern replacement text out)
    (second : Rewrites pattern replacement text out') : out = out' := by
  obtain ⟨x, pattern, rfl⟩ := List.exists_cons_of_ne_nil nonempty
  induction first generalizing out' with
  | done => cases second; rfl
  | @kept c rest out unlike later ih =>
      generalize same : c :: rest = text at second
      cases second with
      | done => cases same
      | kept unlike' later' => cases same; exact congrArg (c :: ·) (ih later')
      | @replaced rest' => exact absurd ⟨rest', same.symm⟩ unlike
  | @replaced rest out later ih =>
      generalize same : x :: pattern ++ rest = text at second
      cases second with
      | done => cases same
      | kept unlike' later' => exact absurd ⟨rest, same⟩ unlike'
      | replaced later' =>
          obtain rfl := List.append_cancel_left same
          exact congrArg (replacement ++ ·) (ih later')

theorem toReplacement (replaced : Rewrites pattern replacement text out) :
    Replacement (.ofList pattern) (.ofList replacement) (.ofList text) (.ofList out) := by
  induction replaced with
  | done => exact .done
  | @kept c rest out unlike later ih =>
      have kept := Replacement.kept (.ofList [c]) ih
      rwa [← String.ofList_append, ← String.ofList_append] at kept
  | replaced later ih =>
      rw [String.ofList_append, String.ofList_append]
      exact .replaced ih

/-- A text in which the pattern does not occur is kept. -/
theorem of_absent (absent : ¬ pattern <:+: text) : Rewrites pattern replacement text text := by
  have kept : Rewrites pattern replacement (text ++ []) (text ++ []) :=
    keep .done fun before after same _ found => absent ?_
  · simpa using kept
  · rw [List.append_nil] at found
    exact found.isInfix.trans ⟨before, [], by rw [same, List.append_nil]⟩

/-- A smaller replacement makes a text smaller in which the pattern occurs. -/
theorem utf8Len_lt (replaced : Rewrites pattern replacement text out)
    (smaller : String.utf8Len replacement < String.utf8Len pattern) (occurs : pattern <:+: text) :
    String.utf8Len out < String.utf8Len text := by
  have le {text out : List Char} (replaced : Rewrites pattern replacement text out) :
      String.utf8Len out ≤ String.utf8Len text := by
    induction replaced with
    | done => exact Nat.le_refl _
    | @kept c _ _ _ later ih => exact Nat.add_le_add_right ih c.utf8Size
    | replaced later ih =>
        rw [String.utf8Len_append, String.utf8Len_append]
        exact Nat.add_le_add smaller.le ih
  induction replaced with
  | done =>
      obtain rfl := List.infix_nil.mp occurs
      cases smaller
  | @kept c rest out unlike later ih =>
      exact Nat.add_lt_add_right
        (ih ((List.infix_cons_iff.mp occurs).resolve_left unlike)) c.utf8Size
  | replaced later ih =>
      rw [String.utf8Len_append, String.utf8Len_append]
      exact Nat.add_lt_add_of_lt_of_le smaller (le later)

end Rewrites

section Search
open String Slice Pattern Model

/-- The pattern begins nowhere in a stretch that a search passes over. -/
theorem unlike_of_passed {pattern : String} {s : Slice} {p q : s.Pos} {before text after : String}
    (start : p.Splits before (text ++ after)) (stop : q.Splits (before ++ text) after)
    (passed : ∀ pos, p ≤ pos → pos < q → ¬ MatchesAt pattern pos) {left right : List Char}
    (same : text.toList = left ++ right) (nonempty : right ≠ []) :
    ¬ pattern.toList <+: right ++ after.toList := by
  rintro ⟨tail, found⟩
  have text_eq : text = .ofList left ++ .ofList right := by
    rw [← String.ofList_append, ← same, String.ofList_toList]
  have whole : s.copy = before ++ .ofList left ++ (.ofList right ++ after) := by
    rw [start.eq_append, text_eq, String.append_assoc, String.append_assoc]
  have middle := Slice.Pos.splits_ofEqAppend whole
  have later : String.ofList right ≠ "" := by
    rw [ne_eq, ← String.toList_inj, String.toList_ofList]
    exact nonempty
  have head : String.ofList right ++ after = pattern ++ .ofList tail := by
    rw [← String.toList_inj, String.toList_append, String.toList_append, String.toList_ofList,
      String.toList_ofList, found]
  have fits : MatchesAt pattern (Slice.Pos.ofEqAppend whole) := by
    rw [ForwardStringSearcher.matchesAt_iff_toSlice, ForwardSliceSearcher.matchesAt_iff_splits,
      String.copy_toSlice]
    exact ⟨before ++ .ofList left, .ofList tail, middle.of_eq rfl head⟩
  refine passed (Slice.Pos.ofEqAppend whole) ?_ ?_ fits
  · exact (start.le_iff_exists_eq_append middle).mpr ⟨.ofList left, rfl, by
      rw [text_eq, String.append_assoc]⟩
  · exact (middle.lt_iff_exists_eq_append stop).mpr ⟨.ofList right, later, by
      rw [text_eq, String.append_assoc], rfl⟩

/-- The steps of a search, from a position in the text on. -/
theorem rewrites_of_search {pattern replacement : String} {s : Slice} {p : s.Pos}
    {steps : List (SearchStep s)} (valid : IsValidSearchFrom pattern p steps)
    {before after : String} (splits : p.Splits before after) (sofar : String) :
    ∃ out : String, Rewrites pattern.toList replacement.toList after.toList out.toList ∧
      steps.foldl (fun (sofar : String) step => match step with
        | .matched .. => sofar ++ ToSlice.toSlice replacement
        | .rejected start stop => sofar ++ s.slice! start stop) sofar = sofar ++ out := by
  induction valid generalizing before after sofar with
  | endPos =>
      obtain rfl := splits.eq_right s.splits_endPos
      exact ⟨"", .done, (String.append_empty).symm⟩
  | matched found valid ih =>
      obtain ⟨first, last, start, stop⟩ :=
        ForwardStringSearcher.isLongestMatchAt_iff_splits.mp found
      obtain rfl := splits.eq_right start
      obtain ⟨out, later, run⟩ := ih stop (sofar ++ replacement)
      refine ⟨replacement ++ out, ?_, ?_⟩
      · rw [String.toList_append, String.toList_append]
        exact .replaced later
      · rw [List.foldl_cons, ← String.append_assoc, ← run]
        congr 1
        exact congrArg (sofar ++ ·) String.copy_toSlice
  | @mismatched steps p q lt passed valid ih =>
      obtain ⟨text, _, left, rfl⟩ := (splits.lt_iff_exists_eq_append q.splits).mp lt
      obtain ⟨out, later, run⟩ := ih q.splits (sofar ++ text)
      obtain ⟨order, cut⟩ := Slice.copy_slice_eq_iff_splits.mpr
        ⟨before, (s.sliceFrom q).copy, splits, left ▸ q.splits⟩
      refine ⟨text ++ out, ?_, ?_⟩
      · rw [String.toList_append, String.toList_append]
        exact later.keep fun _ _ same nonempty =>
          unlike_of_passed splits (left ▸ q.splits) passed same nonempty
      · rw [Slice.slice_eq_slice!] at cut
        rw [List.foldl_cons, ← String.append_assoc, ← run]
        congr 1
        exact congrArg (sofar ++ ·) cut

theorem rewrites_replace (text : String) {pattern : String} (nonempty : pattern ≠ "")
    (replacement : String) :
    Rewrites pattern.toList replacement.toList text.toList
      (text.replace pattern replacement).toList := by
  have valid := (ForwardStringSearcher.lawfulToForwardSearcherModel
    nonempty).isValidSearchFrom_toList text.toSlice
  obtain ⟨out, replaced, run⟩ :=
    @rewrites_of_search pattern replacement _ _ _ valid _ _ text.toSlice.splits_startPos ""
  rw [Std.Iter.foldl_toList, String.empty_append] at run
  rw [String.copy_toSlice] at replaced
  have same : text.replace pattern replacement = out := by
    rw [← run]
    unfold String.replace Slice.replace
    congr 1
    funext sofar step
    cases step <;> rfl
  rwa [same]

theorem replacement_replace (text : String) {pattern : String} (nonempty : pattern ≠ "")
    (replacement : String) :
    Replacement pattern replacement text (text.replace pattern replacement) := by
  have replaced := (rewrites_replace text nonempty replacement).toReplacement
  simpa only [String.ofList_toList] using replaced

/-- The result is the one that the relation describes. -/
theorem replace_eq {text pattern replacement : String} {out : List Char} (nonempty : pattern ≠ "")
    (replaced : Rewrites pattern.toList replacement.toList text.toList out) :
    text.replace pattern replacement = .ofList out := by
  rw [← String.toList_inj, String.toList_ofList]
  refine (rewrites_replace text nonempty replacement).functional ?_ replaced
  rwa [ne_eq, String.toList_eq_nil_iff]

end Search

namespace Replacement
variable {pattern replacement text out : String}

/-- A replacement that is no larger makes a text no larger. -/
theorem utf8ByteSize_le (replaced : Replacement pattern replacement text out)
    (smaller : replacement.utf8ByteSize ≤ pattern.utf8ByteSize) :
    out.utf8ByteSize ≤ text.utf8ByteSize := by
  induction replaced with
  | done => exact Nat.le_refl _
  | kept first later ih =>
      rw [String.utf8ByteSize_append, String.utf8ByteSize_append]
      exact Nat.add_le_add_left ih _
  | replaced later ih =>
      rw [String.utf8ByteSize_append, String.utf8ByteSize_append]
      exact Nat.add_le_add smaller ih

end Replacement

/-! One replacement after the other. -/

theorem replace_of_absent {text pattern replacement : String} (nonempty : pattern ≠ "")
    (absent : ¬ pattern.toList <:+: text.toList) : text.replace pattern replacement = text :=
  (replace_eq nonempty (.of_absent absent)).trans String.ofList_toList

theorem utf8ByteSize_replace_lt {text pattern replacement : String}
    (smaller : replacement.utf8ByteSize < pattern.utf8ByteSize)
    (occurs : pattern.toList <:+: text.toList) :
    (text.replace pattern replacement).utf8ByteSize < text.utf8ByteSize := by
  have nonempty : pattern ≠ "" := by
    rintro rfl
    cases smaller
  have size (text : String) : text.utf8ByteSize = String.utf8Len text.toList := by
    rw [← String.utf8ByteSize_ofList, String.ofList_toList]
  rw [size, size] at smaller ⊢
  exact (rewrites_replace text nonempty replacement).utf8Len_lt smaller occurs

/-- `text.replace(…).replace(…)…` -/
def replaceEach (pairs : List (String × String)) (text : String) : String :=
  pairs.foldl (fun text (pattern, replacement) => text.replace pattern replacement) text

section Each
variable {pairs : List (String × String)}

theorem replaceEach_cons (e : String × String) (text : String) :
    replaceEach (e :: pairs) text = replaceEach pairs (text.replace e.1 e.2) := rfl

theorem utf8ByteSize_replaceEach_le (text : String)
    (smaller : ∀ e ∈ pairs, e.1 ≠ "" ∧ e.2.utf8ByteSize ≤ e.1.utf8ByteSize) :
    (replaceEach pairs text).utf8ByteSize ≤ text.utf8ByteSize := by
  induction pairs generalizing text with
  | nil => exact Nat.le_refl _
  | cons e pairs ih =>
      obtain ⟨⟨nonempty, first⟩, others⟩ := List.forall_mem_cons.mp smaller
      exact (ih _ others).trans ((replacement_replace text nonempty e.2).utf8ByteSize_le first)

theorem replaceEach_of_absent {text : String} (nonempty : ∀ e ∈ pairs, e.1 ≠ "")
    (absent : ∀ e ∈ pairs, ¬ e.1.toList <:+: text.toList) : replaceEach pairs text = text := by
  induction pairs with
  | nil => rfl
  | cons e pairs ih =>
      obtain ⟨first, others⟩ := List.forall_mem_cons.mp nonempty
      obtain ⟨here, later⟩ := List.forall_mem_cons.mp absent
      rw [replaceEach_cons, replace_of_absent first here]
      exact ih others later

/-- The pattern that is met first makes the text smaller, and none makes it larger again. -/
theorem utf8ByteSize_replaceEach_lt {text : String}
    (smaller : ∀ e ∈ pairs, e.2.utf8ByteSize < e.1.utf8ByteSize)
    (occurs : ∃ e ∈ pairs, e.1.toList <:+: text.toList) :
    (replaceEach pairs text).utf8ByteSize < text.utf8ByteSize := by
  have nonempty (e : String × String) (less : e.2.utf8ByteSize < e.1.utf8ByteSize) : e.1 ≠ "" := by
    intro empty
    rw [empty] at less
    cases less
  induction pairs generalizing text with
  | nil =>
      obtain ⟨e, mem, _⟩ := occurs
      cases mem
  | cons e pairs ih =>
      obtain ⟨first, others⟩ := List.forall_mem_cons.mp smaller
      rw [replaceEach_cons]
      by_cases here : e.1.toList <:+: text.toList
      · refine Nat.lt_of_le_of_lt ?_ (utf8ByteSize_replace_lt first here)
        exact utf8ByteSize_replaceEach_le _ fun f mem =>
          ⟨nonempty f (others f mem), (others f mem).le⟩
      · rw [replace_of_absent (nonempty e first) here]
        obtain ⟨f, mem, found⟩ := occurs
        rcases List.mem_cons.mp mem with rfl | mem
        · exact absurd found here
        · exact ih others ⟨f, mem, found⟩

end Each
end Text
