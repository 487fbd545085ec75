import Mathlib.Data.List.Infix

/-!
Backtracking regular expressions over characters. `rest` lists what may remain
of the text after a match at its head, in the order in which a backtracking
matcher would try them, so its first element is the match such a matcher reports.
-/
namespace Text

inductive Regex where
  | nothing
  | set (p : Char → Bool)
  | seq (r s : Regex)
  | alt (r s : Regex)
  | star (r : Regex)

namespace Regex

/-- Greedy iteration. An iteration that consumes nothing ends the loop. -/
def iterate (f : List Char → List (List Char)) : Nat → List Char → List (List Char)
  | 0, xs => [xs]
  | n + 1, xs =>
      ((f xs).filter fun ys => ys.length < xs.length).flatMap (iterate f n) ++ [xs]

def rest : Regex → List Char → List (List Char)
  | nothing, xs => [xs]
  | set _, [] => []
  | set p, x :: xs => if p x then [xs] else []
  | seq r s, xs => (rest r xs).flatMap (rest s)
  | alt r s, xs => rest r xs ++ rest s xs
  | star r, xs => iterate (rest r) xs.length xs

/-- `pattern.search(text)` finds a match. -/
def search (r : Regex) (text : String) : Bool :=
  text.toList.tails.any fun xs => !(rest r xs).isEmpty

/-- The ASCII letter that a character equals when case is ignored. Besides the
capital letters there are four characters outside ASCII that fold to one. -/
def foldCase (c : Char) : Char :=
  if c = 'İ' ∨ c = 'ı' then 'i'
  else if c = 'ſ' then 's'
  else if c = '\u212a' then 'k'
  else c.toLower

theorem toLower_eq {c d : Char} (lowered : c.toLower = d) (unlettered : ¬ ('a' ≤ d ∧ d ≤ 'z')) :
    c = d := by
  unfold Char.toLower at lowered
  split at lowered
  · rename_i capital
    obtain ⟨low, high⟩ := capital
    refine absurd ?_ unlettered
    subst lowered
    simp only [Char.le_def, ge_iff_le, UInt32.le_iff_toNat_le] at low high ⊢
    simp at low high ⊢
    omega
  · exact lowered

/-- Nothing but itself folds to a character that is no letter. -/
theorem foldCase_eq {c d : Char} (same : foldCase c = d) (unlettered : ¬ ('a' ≤ d ∧ d ≤ 'z')) :
    c = d := by
  unfold foldCase at same
  split at same
  · exact absurd (by rw [← same]; decide) unlettered
  split at same
  · exact absurd (by rw [← same]; decide) unlettered
  split at same
  · exact absurd (by rw [← same]; decide) unlettered
  · exact toLower_eq same unlettered

/-- A literal of ASCII characters, case ignored. -/
def word (w : String) : Regex :=
  w.toList.foldr (fun c r => seq (set fun x => foldCase x == foldCase c) r) nothing

/-- `.*` -/
def gap : Regex := star (set fun x => x != '\n')

/-- `r | s | …` -/
def oneOf : List Regex → Regex
  | [] => set fun _ => false
  | [r] => r
  | r :: rs => alt r (oneOf rs)

def words (ws : List String) : Regex := oneOf (ws.map word)

/-- `(?:r)?` -/
def optional (r : Regex) : Regex := alt r nothing

/-- `r+` -/
def plus (r : Regex) : Regex := seq r (star r)

/-- `r{0,n}` -/
def upTo : Nat → Regex → Regex
  | 0, _ => nothing
  | n + 1, r => optional (seq r (upTo n r))

/-- `pattern.match(text)` finds a match of `r$`: the pattern may end before a line break
that ends the text. -/
def matchesLine (r : Regex) (text : String) : Bool :=
  (rest r text.toList).any fun left => left = [] || left = ['\n']

example :
    search (seq (word "exceeded ") (seq gap (word "limit"))) "You EXCEEDED the Limit" = true := by
  decide

/-! What a pattern of literals finds. -/

/-- The pattern matches at the head of a text. -/
def Fits (r : Regex) (xs : List Char) : Prop := rest r xs ≠ []

theorem search_iff {r : Regex} {text : String} :
    search r text = true ↔ ∃ xs, xs <:+ text.toList ∧ r.Fits xs := by
  simp [search, Fits]

theorem fits_alt {r s : Regex} {xs : List Char} : (alt r s).Fits xs ↔ r.Fits xs ∨ s.Fits xs := by
  simp only [Fits, rest, ne_eq, List.append_eq_nil_iff, not_and_or]

theorem fits_oneOf {rs : List Regex} {xs : List Char} : (oneOf rs).Fits xs ↔
    ∃ r ∈ rs, r.Fits xs := by
  fun_induction oneOf rs with
  | case1 => cases xs <;> simp [Fits, rest]
  | case2 r => simp
  | case3 r rs _ ih => simp [fits_alt, ih]

/-- The text as case-insensitive matching reads it. -/
def folded (text : String) : List Char := text.toList.map foldCase

theorem rest_word (w : String) (xs : List Char) :
    rest (word w) xs = if folded w <+: xs.map foldCase then [xs.drop w.toList.length] else [] := by
  unfold word folded
  induction w.toList generalizing xs with
  | nil => simp [rest]
  | cons c cs ih =>
      cases xs with
      | nil => simp [rest]
      | cons x xs =>
          by_cases same : foldCase x = foldCase c
          · simp [rest, same, ih xs, List.cons_prefix_cons]
          · simp [rest, same, List.cons_prefix_cons, Ne.symm same]

theorem rest_word_append {w : String} {head : List Char} (spelled : head.map foldCase = folded w)
    (tail : List Char) : rest (word w) (head ++ tail) = [tail] := by
  have length : head.length = w.toList.length := by
    simpa [folded] using congrArg List.length spelled
  rw [rest_word, List.map_append, spelled, if_pos (List.prefix_append _ _), List.drop_left' length]

/-- What a text begins with when case is ignored, it begins with where there is no letter. -/
theorem prefix_of_folded {head xs : List Char} (unlettered : ∀ d ∈ head, ¬ ('a' ≤ d ∧ d ≤ 'z'))
    (found : head <+: xs.map foldCase) : head <+: xs := by
  induction head generalizing xs with
  | nil => exact List.nil_prefix
  | cons d head ih =>
      obtain ⟨first, others⟩ := List.forall_mem_cons.mp unlettered
      cases xs with
      | nil => cases List.prefix_nil.mp found
      | cons x xs =>
          obtain ⟨same, found⟩ := List.cons_prefix_cons.mp found
          exact List.cons_prefix_cons.mpr ⟨(foldCase_eq same.symm first).symm, ih others found⟩

theorem fits_word {w : String} {xs : List Char} :
    (word w).Fits xs ↔ folded w <+: xs.map foldCase := by
  rw [Fits, rest_word]
  split <;> simp [*]

theorem fits_word_seq {w : String} {s : Regex} {xs : List Char} :
    (seq (word w) s).Fits xs ↔ (word w).Fits xs ∧ s.Fits (xs.drop w.toList.length) := by
  simp only [Fits, rest, rest_word]
  split <;> simp

theorem fits_words {ws : List String} {xs : List Char} :
    (words ws).Fits xs ↔ ∃ w ∈ ws, (word w).Fits xs := by
  simp [words, fits_oneOf]

/-- Two literals one after the other are one literal. -/
theorem fits_word_append {v w : String} {xs : List Char} :
    (word (v ++ w)).Fits xs ↔ (seq (word v) (word w)).Fits xs := by
  rw [fits_word_seq]
  simp only [fits_word, folded, String.toList_append, List.map_append, List.map_drop]
  constructor
  · rintro ⟨tail, same⟩
    refine ⟨⟨w.toList.map foldCase ++ tail, by rw [← same, List.append_assoc]⟩, tail, ?_⟩
    rw [← same, List.append_assoc, List.drop_left' (by simp)]
  · rintro ⟨⟨tail, same⟩, tail', same'⟩
    rw [← same, List.drop_left' (by simp)] at same'
    exact ⟨tail', by rw [List.append_assoc, same', same]⟩

/-- A literal is found where the text has it, case ignored. -/
theorem search_word {w text : String} :
    search (word w) text = true ↔ folded w <:+: folded text := by
  rw [search_iff, List.infix_iff_prefix_suffix]
  constructor
  · rintro ⟨xs, tail, found⟩
    exact ⟨xs.map foldCase, fits_word.mp found, tail.map foldCase⟩
  · rintro ⟨ys, head, tail⟩
    obtain ⟨xs, suffix, rfl⟩ := List.suffix_map_iff.mp tail
    exact ⟨xs, suffix, fits_word.mpr head⟩

theorem search_words {ws : List String} {text : String} :
    search (words ws) text = true ↔ ∃ w ∈ ws, search (word w) text = true := by
  simp only [search_iff, fits_words]
  exact ⟨fun ⟨xs, tail, w, mem, fits⟩ => ⟨w, mem, xs, tail, fits⟩,
    fun ⟨w, mem, xs, tail, fits⟩ => ⟨xs, tail, w, mem, fits⟩⟩

/-- A pattern is found wherever one is that fits only where it does. -/
theorem search_mono {r s : Regex} (h : ∀ xs, r.Fits xs → s.Fits xs) {text : String}
    (found : search r text = true) : search s text = true := by
  obtain ⟨xs, tail, fits⟩ := search_iff.mp found
  exact search_iff.mpr ⟨xs, tail, h xs fits⟩

end Regex
end Text
