import Mathlib.Algebra.Ring.Nat
import Mathlib.Data.List.Basic
import Mathlib.Data.String.Basic

/-!
The lines of a text, as Python's `splitlines` finds them. Which characters end a line is
a parameter; a carriage return and the line feed behind it end one line together. What
stands behind the last end is a line only if it is not empty.
-/
namespace Text

def splitlines (ends : Char → Bool) : List Char → List (List Char)
  | [] => []
  | '\r' :: '\n' :: text => [] :: splitlines ends text
  | c :: text =>
      if ends c then [] :: splitlines ends text
      else match splitlines ends text with
        | [] => [[c]]
        | line :: lines => (c :: line) :: lines

/-- What ends a line for `str.splitlines`. -/
def isLineBoundary (c : Char) : Bool :=
  c ∈ ['\n', '\r', '\x0b', '\x0c', '\x1c', '\x1d', '\x1e', '\u0085', '\u2028', '\u2029']

/-- What ends a line for `bytes.splitlines`, in a text that is written in UTF-8. -/
def isNewline (c : Char) : Bool := c = '\n' || c = '\r'

section Lines
variable {ends : Char → Bool}

theorem splitlines_eq_nil {text : List Char} : splitlines ends text = [] ↔ text = [] := by
  constructor
  · intro h
    unfold splitlines at h
    split at h
    · rfl
    · cases h
    · split at h
      · cases h
      · split at h <;> cases h
  · rintro rfl
    rfl

variable (returns : ends '\r' = true)
include returns

theorem splitlines_cons_of_not {c : Char} (inner : ends c = false) (text : List Char) :
    splitlines ends (c :: text) =
      (c :: (splitlines ends text).headD []) :: (splitlines ends text).tail := by
  have other : c ≠ '\r' := fun same => by simp [same, returns] at inner
  rw [splitlines.eq_3 _ _ _ fun _ same _ => other same, if_neg (by simp [inner])]
  cases splitlines ends text <;> rfl

theorem splitlines_of_unbroken {text : List Char} (unbroken : ∀ c ∈ text, ends c = false) :
    splitlines ends text = if text = [] then [] else [text] := by
  induction text with
  | nil => rfl
  | cons c text ih =>
      obtain ⟨inner, unbroken⟩ := List.forall_mem_cons.mp unbroken
      rw [splitlines_cons_of_not returns inner, ih unbroken, if_neg (List.cons_ne_nil c text)]
      cases text <;> rfl

omit returns in
/-- Something behind the end of a line is a second one. -/
theorem one_lt_length_splitlines {c : Char} {text : List Char} (last : ends c = true)
    (more : text ≠ []) (other : text ≠ ['\n']) :
    1 < (splitlines ends (c :: text)).length := by
  have second {rest : List Char} (nonempty : rest ≠ []) : 0 < (splitlines ends rest).length :=
    List.length_pos_iff.mpr fun nil => nonempty (splitlines_eq_nil.mp nil)
  rw [splitlines.eq_def]
  split
  · contradiction
  · rename_i rest same
    obtain ⟨rfl, rfl⟩ := List.cons.inj same
    exact Nat.succ_lt_succ (second fun nil => other (congrArg _ nil))
  · rename_i same
    obtain ⟨rfl, rfl⟩ := List.cons.inj same
    rw [if_pos last]
    exact Nat.succ_lt_succ (second more)

/-- Only the last of several pieces may end its line, when what it begins with does not. -/
theorem length_splitlines_append {c : Char} {front text : List Char} (inner : ends c = false)
    (feeds : ends '\n' = true) : (splitlines ends (front ++ c :: text)).length ≤ 1 ↔
      (∀ d ∈ front, ends d = false) ∧ (splitlines ends (c :: text)).length ≤ 1 := by
  induction front with
  | nil => simp
  | cons d front ih =>
      cases last : ends d with
      | true =>
          have other : front ++ c :: text ≠ ['\n'] := by
            intro same
            have mem : c ∈ front ++ c :: text := List.mem_append_right _ List.mem_cons_self
            rw [same, List.mem_singleton] at mem
            simp [mem, feeds] at inner
          have two := one_lt_length_splitlines last (List.append_ne_nil_of_right_ne_nil _
            (List.cons_ne_nil c text)) other
          simp only [List.cons_append, Nat.not_le.mpr two, List.forall_mem_cons, last,
            Bool.true_eq_false, false_and]
      | false =>
          rw [List.cons_append, splitlines_cons_of_not returns last, List.forall_mem_cons,
            and_assoc, ← ih]
          simp only [List.length_cons, List.length_tail, last, true_and]
          omega

end Lines

/-- The text is one line, which may have its end. -/
def OneLine (s : String) : Prop := (splitlines isLineBoundary s.toList).length ≤ 1

/-- No line ends in the text. -/
def Unbroken (s : String) : Prop := ∀ c ∈ s.toList, isLineBoundary c = false

instance (s : String) : Decidable (OneLine s) := inferInstanceAs (Decidable (_ ≤ _))

instance (s : String) : Decidable (Unbroken s) :=
  decidable_of_iff ((s.toList.all fun c => !isLineBoundary c) = true) (by simp [Unbroken])

variable {s t : String}

theorem unbroken_append : Unbroken (s ++ t) ↔ Unbroken s ∧ Unbroken t := by
  simp only [Unbroken, String.toList_append, List.forall_mem_append]

theorem oneLine_append {c : Char} {text : List Char} (begins : t.toList = c :: text)
    (inner : isLineBoundary c = false) : OneLine (s ++ t) ↔ Unbroken s ∧ OneLine t := by
  rw [OneLine, OneLine, Unbroken, String.toList_append, begins]
  exact length_splitlines_append rfl inner rfl

/-! The lines put together again. -/

/-- The text, with a line feed at the end of each line. -/
def endLines (s : String) : String :=
  "\n".intercalate ((splitlines isNewline s.toList).map String.ofList) ++ "\n"

theorem endLines_of_unbroken (unbroken : ∀ c ∈ s.toList, isNewline c = false) :
    endLines s = s ++ "\n" := by
  rw [endLines, splitlines_of_unbroken rfl unbroken]
  split
  · rename_i empty
    rw [String.toList_eq_nil_iff.mp empty]
    rfl
  · rw [List.map_singleton, String.intercalate_singleton, String.ofList_toList]

theorem utf8ByteSize_intercalate (lines : List (List Char)) :
    ("\n".intercalate (lines.map String.ofList) ++ "\n").utf8ByteSize ≤
      max 1 (lines.map fun line => String.utf8Len line + 1).sum := by
  have feed : "\n".utf8ByteSize = 1 := rfl
  induction lines with
  | nil => exact Nat.le_max_left 1 _
  | cons line lines ih =>
      cases lines with
      | nil =>
          rw [List.map_singleton, String.intercalate_singleton, String.utf8ByteSize_append,
            String.utf8ByteSize_ofList, feed]
          exact Nat.le_max_right 1 _
      | cons next lines =>
          rw [List.map_cons, List.map_cons, String.intercalate_cons_cons, ← List.map_cons,
            String.append_assoc, String.utf8ByteSize_append, String.utf8ByteSize_append,
            String.utf8ByteSize_ofList, feed]
          simp only [List.map_cons, List.sum_cons] at ih ⊢
          omega

theorem sum_splitlines_le {ends : Char → Bool} (text : List Char) :
    ((splitlines ends text).map fun line => String.utf8Len line + 1).sum ≤
      String.utf8Len text + 1 := by
  fun_induction splitlines ends text with
  | case1 => exact Nat.zero_le _
  | case2 text ih =>
      have feed := '\n'.utf8Size_pos
      have carriage := '\r'.utf8Size_pos
      simp only [List.map_cons, List.sum_cons, String.utf8Len_cons, String.utf8Len_nil]
      omega
  | case3 c text _ _ ih =>
      have size := c.utf8Size_pos
      simp only [List.map_cons, List.sum_cons, String.utf8Len_cons, String.utf8Len_nil]
      omega
  | case4 c text _ _ nil => simp
  | case5 c text _ _ line lines same ih =>
      rw [same] at ih
      simp only [List.map_cons, List.sum_cons, String.utf8Len_cons] at ih ⊢
      omega

/-- Ending each line takes one byte more at most. -/
theorem utf8ByteSize_endLines_le (s : String) :
    (endLines s).utf8ByteSize ≤ s.utf8ByteSize + 1 := by
  have size := String.utf8ByteSize_ofList s.toList
  have pieces := @sum_splitlines_le isNewline s.toList
  rw [String.ofList_toList] at size
  refine (utf8ByteSize_intercalate _).trans ?_
  omega

end Text
