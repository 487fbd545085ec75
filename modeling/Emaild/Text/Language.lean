import Mathlib.Computability.Language
import Emaild.Text.Regex

/-!
Regular expressions and their languages: the matcher leaves over what follows a word of the
pattern's language, for every such word.
-/
namespace Text.Regex

def language : Regex → Language Char
  | nothing => 1
  | set p => {w | ∃ c, p c = true ∧ w = [c]}
  | seq r s => language r * language s
  | alt r s => language r + language s
  | star r => KStar.kstar (language r)

theorem mem_iterate {f : List Char → List (List Char)} {words : Language Char}
    (each : ∀ xs left, left ∈ f xs ↔ ∃ w ∈ words, xs = w ++ left) {n : Nat} {xs left : List Char}
    (enough : xs.length ≤ n) :
    left ∈ iterate f n xs ↔ ∃ w ∈ KStar.kstar words, xs = w ++ left := by
  constructor
  · intro found
    clear enough
    induction n generalizing xs with
    | zero => exact ⟨[], Language.nil_mem_kstar _, (List.mem_singleton.mp found).symm⟩
    | succ n ih =>
        rcases List.mem_append.mp found with further | stopped
        · obtain ⟨ys, step, later⟩ := List.mem_flatMap.mp further
          obtain ⟨w, mem, rfl⟩ := (each xs ys).mp (List.mem_filter.mp step).1
          obtain ⟨_, ⟨parts, rfl, all⟩, rfl⟩ := ih later
          exact ⟨w ++ parts.flatten, ⟨w :: parts, rfl, List.forall_mem_cons.mpr ⟨mem, all⟩⟩,
            (List.append_assoc ..).symm⟩
        · exact ⟨[], Language.nil_mem_kstar _, (List.mem_singleton.mp stopped).symm⟩
  · rintro ⟨w, mem, rfl⟩
    rw [Language.kstar_def_nonempty] at mem
    obtain ⟨parts, rfl, all⟩ := mem
    induction parts generalizing n with
    | nil => cases n <;> simp [iterate]
    | cons part parts ih =>
        obtain ⟨⟨mem, nonempty⟩, all⟩ := List.forall_mem_cons.mp all
        have shorter : (parts.flatten ++ left).length <
            ((part :: parts).flatten ++ left).length := by
          have := List.length_pos_iff.mpr nonempty
          simp only [List.flatten_cons, List.length_append]
          omega
        cases n with
        | zero => exact absurd (lt_of_lt_of_le shorter enough) (Nat.not_lt_zero _)
        | succ n =>
            refine List.mem_append_left _ (List.mem_flatMap.mpr ⟨parts.flatten ++ left, ?_, ?_⟩)
            · refine List.mem_filter.mpr ⟨(each _ _).mpr ⟨part, mem, ?_⟩, decide_eq_true shorter⟩
              rw [List.flatten_cons, List.append_assoc]
            · exact ih all (Nat.le_of_lt_succ (lt_of_lt_of_le shorter enough))

/-- What remains of a text after a match is what follows a word of the pattern. -/
theorem mem_rest {r : Regex} {xs left : List Char} :
    left ∈ rest r xs ↔ ∃ w ∈ language r, xs = w ++ left := by
  induction r generalizing xs left with
  | nothing =>
      constructor
      · intro found
        exact ⟨[], Language.nil_mem_one, (List.mem_singleton.mp found).symm⟩
      · rintro ⟨w, rfl, rfl⟩
        exact List.mem_singleton_self _
  | set p =>
      cases xs with
      | nil =>
          refine ⟨(nomatch ·), ?_⟩
          rintro ⟨_, ⟨c, _, rfl⟩, same⟩
          cases same
      | cons x xs =>
          constructor
          · intro found
            by_cases passes : p x = true
            · simp only [rest, passes, if_true, List.mem_singleton] at found
              exact ⟨[x], ⟨x, passes, rfl⟩, found ▸ rfl⟩
            · simp [rest, passes] at found
          · rintro ⟨_, ⟨c, passes, rfl⟩, same⟩
            obtain ⟨rfl, rfl⟩ := List.cons.inj same
            simp [rest, passes]
  | seq r s ihr ihs =>
      constructor
      · intro found
        obtain ⟨middle, first, second⟩ := List.mem_flatMap.mp found
        obtain ⟨u, hu, rfl⟩ := ihr.mp first
        obtain ⟨v, hv, rfl⟩ := ihs.mp second
        exact ⟨u ++ v, Language.append_mem_mul hu hv, (List.append_assoc ..).symm⟩
      · rintro ⟨_, mem, rfl⟩
        obtain ⟨u, hu, v, hv, rfl⟩ := Language.mem_mul.mp mem
        refine List.mem_flatMap.mpr ⟨v ++ left, ihr.mpr ⟨u, hu, ?_⟩, ihs.mpr ⟨v, hv, rfl⟩⟩
        exact List.append_assoc ..
  | alt r s ihr ihs =>
      rw [rest, List.mem_append, ihr, ihs]
      constructor
      · rintro (⟨w, mem, same⟩ | ⟨w, mem, same⟩)
        · exact ⟨w, .inl mem, same⟩
        · exact ⟨w, .inr mem, same⟩
      · rintro ⟨w, mem | mem, same⟩
        · exact .inl ⟨w, mem, same⟩
        · exact .inr ⟨w, mem, same⟩
  | star r ih => exact mem_iterate (fun _ _ => ih) (Nat.le_refl _)

theorem matchesLine_iff {r : Regex} {text : String} : matchesLine r text = true ↔
    ∃ w ∈ language r, text.toList = w ∨ text.toList = w ++ ['\n'] := by
  simp only [matchesLine, List.any_eq_true, mem_rest, Bool.or_eq_true, decide_eq_true_eq]
  constructor
  · rintro ⟨left, ⟨w, mem, same⟩, rfl | rfl⟩
    · exact ⟨w, mem, .inl (by simpa using same)⟩
    · exact ⟨w, mem, .inr same⟩
  · rintro ⟨w, mem, same | same⟩
    · exact ⟨[], ⟨w, mem, by simpa using same⟩, .inl rfl⟩
    · exact ⟨['\n'], ⟨w, mem, same⟩, .inr rfl⟩

theorem mem_optional {r : Regex} {w : List Char} :
    w ∈ language (optional r) ↔ w ∈ language r ∨ w = [] := Iff.rfl

theorem mem_plus {r : Regex} {w : List Char} : w ∈ language (plus r) ↔
    ∃ parts : List (List Char),
      parts ≠ [] ∧ (∀ part ∈ parts, part ∈ language r) ∧ w = parts.flatten := by
  constructor
  · rintro ⟨first, mem, _, ⟨parts, rfl, all⟩, rfl⟩
    exact ⟨first :: parts, List.cons_ne_nil _ _, List.forall_mem_cons.mpr ⟨mem, all⟩, rfl⟩
  · rintro ⟨parts, nonempty, all, rfl⟩
    obtain ⟨first, parts, rfl⟩ := List.exists_cons_of_ne_nil nonempty
    obtain ⟨mem, all⟩ := List.forall_mem_cons.mp all
    exact ⟨first, mem, _, ⟨parts, rfl, all⟩, rfl⟩

theorem mem_upTo_set {p : Char → Bool} {n : Nat} {w : List Char} :
    w ∈ language (upTo n (set p)) ↔ w.length ≤ n ∧ ∀ c ∈ w, p c = true := by
  induction n generalizing w with
  | zero =>
      constructor
      · rintro rfl
        exact ⟨Nat.le_refl 0, fun _ mem => nomatch mem⟩
      · rintro ⟨short, _⟩
        exact List.length_eq_zero_iff.mp (Nat.le_zero.mp short)
  | succ n ih =>
      rw [upTo, mem_optional]
      constructor
      · rintro (⟨_, ⟨c, passes, rfl⟩, v, mem, rfl⟩ | rfl)
        · obtain ⟨short, all⟩ := ih.mp mem
          exact ⟨Nat.succ_le_succ short, List.forall_mem_cons.mpr ⟨passes, all⟩⟩
        · exact ⟨Nat.zero_le _, fun _ mem => nomatch mem⟩
      · rintro ⟨short, all⟩
        cases w with
        | nil => exact .inr rfl
        | cons c w =>
            obtain ⟨passes, all⟩ := List.forall_mem_cons.mp all
            exact .inl ⟨[c], ⟨c, passes, rfl⟩, w,
              ih.mpr ⟨Nat.le_of_succ_le_succ short, all⟩, rfl⟩

end Text.Regex
