import Mathlib.Data.List.Basic
import Mathlib.Data.List.Infix

/-!
Replacing every match of a pattern, from left to right. A pattern sees the character before
the place it is tried at, and says what it puts for a match and how long the match is. Where
a separator cannot take part in a match, the parts around it are rewritten on their own.
-/
namespace Text

structure Pattern where
  match? : Option Char → List Char → Option (List Char × Nat)
  fits : ∀ {prev text put n}, match? prev text = some (put, n) → 0 < n ∧ n ≤ text.length

namespace Pattern
variable (p : Pattern)

/-- The text with its matches replaced, while `skip` characters of a match are left. -/
def subFrom : Nat → Option Char → List Char → List Char
  | _, _, [] => []
  | skip + 1, _, c :: rest => subFrom skip (some c) rest
  | 0, prev, c :: rest =>
      match p.match? prev (c :: rest) with
      | some (put, n) => put ++ subFrom (n - 1) (some c) rest
      | none => c :: subFrom 0 (some c) rest

/-- `pattern.sub(replacement, text)` -/
def sub (text : List Char) : List Char := p.subFrom 0 none text

theorem subFrom_of_match {prev : Option Char} {c : Char} {rest put : List Char} {n : Nat}
    (found : p.match? prev (c :: rest) = some (put, n)) :
    p.subFrom 0 prev (c :: rest) = put ++ p.subFrom (n - 1) (some c) rest := by
  rw [subFrom, found]

theorem subFrom_of_none {prev : Option Char} {c : Char} {rest : List Char}
    (unmatched : p.match? prev (c :: rest) = none) :
    p.subFrom 0 prev (c :: rest) = c :: p.subFrom 0 (some c) rest := by
  rw [subFrom, unmatched]

/-- Where nothing matches, nothing changes. -/
theorem subFrom_eq_self {prev : Option Char} {text : List Char}
    (head : ∀ c rest, text = c :: rest → p.match? prev text = none)
    (tail : ∀ front c rest, text = front ++ c :: rest → p.match? (some c) rest = none) :
    p.subFrom 0 prev text = text := by
  induction text generalizing prev with
  | nil => rfl
  | cons c rest ih =>
      rw [p.subFrom_of_none (head c rest rfl), ih]
      · intro d more eq
        exact tail [] c rest rfl
      · intro front d more eq
        exact tail (c :: front) d more (by rw [eq, List.cons_append])

theorem sub_eq_self {text : List Char}
    (unmatched : ∀ prev rest, rest <:+ text → p.match? prev rest = none) : p.sub text = text :=
  p.subFrom_eq_self (fun _ _ _ => unmatched _ _ (List.suffix_refl _)) fun front c rest eq =>
    unmatched _ _ (by rw [eq]; exact (List.suffix_cons c rest).trans (List.suffix_append front _))

theorem subFrom_skip {skip : Nat} {prev : Option Char} {front rest : List Char}
    (length : front.length = skip) :
    p.subFrom skip prev (front ++ rest) = p.subFrom 0 (front.getLast?.or prev) rest := by
  induction front generalizing skip prev with
  | nil => subst length; rfl
  | cons c front ih =>
      subst length
      rw [List.cons_append, List.length_cons, subFrom, ih rfl, List.getLast?_cons]
      cases front.getLast? <;> rfl

/-- No match takes in the separator, and a place behind it is like the head of a text. -/
structure Apart (sep : Char) : Prop where
  behind : p.match? (some sep) = p.match? none
  here : ∀ prev rest, p.match? prev (sep :: rest) = none
  before : ∀ prev text rest, text ≠ [] → p.match? prev (text ++ sep :: rest) = p.match? prev text

variable {p} {sep : Char}

theorem Apart.subFrom_behind (h : p.Apart sep) (text : List Char) :
    p.subFrom 0 (some sep) text = p.sub text := by
  cases text with
  | nil => rfl
  | cons c rest => rw [sub, subFrom, subFrom, h.behind]

theorem Apart.subFrom_append (h : p.Apart sep) {skip : Nat} {text : List Char}
    (inside : skip ≤ text.length) (prev : Option Char) (rest : List Char) :
    p.subFrom skip prev (text ++ sep :: rest) = p.subFrom skip prev text ++ sep :: p.sub rest := by
  induction text generalizing skip prev with
  | nil =>
      rw [Nat.le_zero.mp inside, List.nil_append, p.subFrom_of_none (h.here _ _), h.subFrom_behind]
      rfl
  | cons c text ih =>
      cases skip with
      | succ skip => exact ih (Nat.le_of_succ_le_succ inside) (some c)
      | zero =>
          have same := h.before prev (c :: text) rest (List.cons_ne_nil _ _)
          rw [List.cons_append] at same ⊢
          cases found : p.match? prev (c :: text) with
          | none =>
              rw [p.subFrom_of_none found, p.subFrom_of_none (same.trans found),
                ih (Nat.zero_le _), List.cons_append]
          | some hit =>
              obtain ⟨put, n⟩ := hit
              obtain ⟨-, short⟩ := p.fits found
              rw [p.subFrom_of_match found, p.subFrom_of_match (same.trans found),
                ih (Nat.sub_le_of_le_add short), List.append_assoc]

/-- The parts around a separator are rewritten on their own. -/
theorem Apart.sub_append (h : p.Apart sep) (text rest : List Char) :
    p.sub (text ++ sep :: rest) = p.sub text ++ sep :: p.sub rest :=
  h.subFrom_append (Nat.zero_le _) none rest

theorem Apart.sub_intercalate (h : p.Apart sep) (parts : List (List Char)) :
    p.sub ([sep].intercalate parts) = [sep].intercalate (parts.map p.sub) := by
  induction parts with
  | nil => rfl
  | cons first rest ih =>
      cases rest with
      | nil => simp [List.intercalate]
      | cons second rest =>
          have split (xs ys : List Char) (zs : List (List Char)) :
              [sep].intercalate (xs :: ys :: zs) = xs ++ sep :: [sep].intercalate (ys :: zs) := by
            simp [List.intercalate]
          simp only [split, h.sub_append, ih, List.map_cons]

/-- A text in which a match can only stand at the head. -/
theorem sub_of_head {text : List Char}
    (tail : ∀ front c rest, text = front ++ c :: rest → p.match? (some c) rest = none) :
    p.sub text = match p.match? none text with
      | some (put, n) => put ++ text.drop n
      | none => text := by
  have rest_unchanged {front rest : List Char} (nonempty : front ≠ [])
      (whole : text = front ++ rest)
      (prev : Option Char) : p.subFrom 0 (front.getLast?.or prev) rest = rest := by
    obtain ⟨before, last, rfl⟩ := (List.eq_nil_or_concat' front).resolve_left nonempty
    refine p.subFrom_eq_self (fun _ _ _ => ?_) fun middle c more eq => ?_
    · rw [List.getLast?_append, List.getLast?_singleton]
      exact tail before last rest (by rw [whole]; simp)
    · exact tail (before ++ last :: middle) c more (by rw [whole, eq]; simp)
  cases text with
  | nil =>
      cases found : p.match? none [] with
      | none => rfl
      | some hit =>
          obtain ⟨positive, short⟩ := p.fits found
          exact absurd positive (Nat.not_lt.mpr short)
  | cons c text =>
      rw [sub]
      cases found : p.match? none (c :: text) with
      | none =>
          rw [p.subFrom_of_none found]
          exact congrArg (c :: ·) (rest_unchanged (List.cons_ne_nil c []) rfl none)
      | some hit =>
          obtain ⟨put, n⟩ := hit
          obtain ⟨positive, short⟩ := p.fits found
          obtain ⟨m, rfl⟩ := Nat.exists_eq_succ_of_ne_zero (Nat.ne_of_gt positive)
          rw [p.subFrom_of_match found, Nat.succ_sub_one]
          have last : (text.take m).getLast?.or (some c) = (c :: text.take m).getLast?.or none := by
            rw [List.getLast?_cons]
            cases (text.take m).getLast? <;> rfl
          have skipped : p.subFrom m (some c) (text.take m ++ text.drop m) =
              p.subFrom 0 ((text.take m).getLast?.or (some c)) (text.drop m) :=
            p.subFrom_skip (List.length_take_of_le (Nat.le_of_succ_le_succ short))
          rw [List.take_append_drop, last, rest_unchanged (List.cons_ne_nil c _) (by simp)]
            at skipped
          rw [skipped]
          rfl

end Pattern
end Text
