import Mathlib.Data.List.Basic
import Mathlib.Data.List.Infix

/-!
Fields between separators. A text without the separator is a field of a longer one exactly if
it stands there between two separators, once one is added at either end.
-/
namespace Text
universe u
variable {α : Type u} {sep : α}

/-- A separator behind each field. -/
theorem flatten_separated {fields : List (List α)} (nonempty : fields ≠ []) :
    (fields.map (· ++ [sep])).flatten = [sep].intercalate fields ++ [sep] := by
  induction fields with
  | nil => exact absurd rfl nonempty
  | cons first rest ih =>
      cases rest with
      | nil => simp [List.intercalate]
      | cons second rest =>
          rw [List.map_cons, List.flatten_cons, ih (List.cons_ne_nil _ _)]
          simp [List.intercalate]

theorem mem_intercalate {parts : List (List α)} {x : α}
    (mem : x ∈ [sep].intercalate parts) : x = sep ∨ ∃ part ∈ parts, x ∈ part := by
  induction parts with
  | nil => cases mem
  | cons first rest ih =>
      cases rest with
      | nil => exact .inr ⟨first, List.mem_cons_self, by simpa [List.intercalate] using mem⟩
      | cons second rest =>
          have split : [sep].intercalate (first :: second :: rest) =
              first ++ sep :: [sep].intercalate (second :: rest) := by simp [List.intercalate]
          rw [split] at mem
          rcases List.mem_append.mp mem with inner | inner
          · exact .inr ⟨first, List.mem_cons_self, inner⟩
          rcases List.mem_cons.mp inner with rfl | inner
          · exact .inl rfl
          · exact (ih inner).imp_right fun ⟨part, among, inner⟩ =>
              ⟨part, List.mem_cons_of_mem _ among, inner⟩

section Words
variable {p : α → Bool}

theorem head?_splitOnP (xs : List α) :
    (xs.splitOnP p).head? = some (xs.takeWhile fun x => !p x) := by
  induction xs with
  | nil => simp
  | cons x xs ih =>
      rw [List.splitOnP_cons_eq_if_modifyHead]
      cases same : p x with
      | true => simp [same]
      | false => simp [same, List.head?_modifyHead, ih]

/-- A field is a part of the text. -/
theorem infix_of_mem_splitOnP {w xs : List α} (mem : w ∈ xs.splitOnP p) : w <:+: xs := by
  induction xs generalizing w with
  | nil => simp_all
  | cons x xs ih =>
      have first := head?_splitOnP (p := p) xs
      obtain ⟨head, fields, eq⟩ := List.exists_cons_of_ne_nil (List.splitOnP_ne_nil p xs)
      rw [List.splitOnP_cons_eq_if_modifyHead] at mem
      rw [eq] at ih first mem
      split at mem
      · rcases List.mem_cons.mp mem with rfl | mem
        · exact List.nil_infix
        · exact (ih mem).trans (List.suffix_cons x xs).isInfix
      · rcases List.mem_cons.mp mem with rfl | mem
        · rw [Option.some.inj first]
          exact (List.cons_prefix_cons.mpr ⟨rfl, List.takeWhile_prefix _⟩).isInfix
        · exact (ih (List.mem_cons_of_mem _ mem)).trans (List.suffix_cons x xs).isInfix

/-- A field has no separator. -/
theorem not_of_mem_splitOnP {w xs : List α} (mem : w ∈ xs.splitOnP p) : ∀ x ∈ w, p x = false := by
  induction xs generalizing w with
  | nil => simp_all
  | cons x xs ih =>
      obtain ⟨head, fields, eq⟩ := List.exists_cons_of_ne_nil (List.splitOnP_ne_nil p xs)
      rw [List.splitOnP_cons_eq_if_modifyHead] at mem
      rw [eq] at ih mem
      split at mem
      · rcases List.mem_cons.mp mem with rfl | mem
        · exact fun _ mem => absurd mem List.not_mem_nil
        · exact ih mem
      · rename_i kept
        rcases List.mem_cons.mp mem with rfl | mem
        · exact List.forall_mem_cons.mpr ⟨Bool.eq_false_iff.mpr kept, ih List.mem_cons_self⟩
        · exact ih (List.mem_cons_of_mem _ mem)

/-- The first field with anything in it. -/
theorem head?_words (xs : List α) :
    ((xs.splitOnP p).filter fun w => !w.isEmpty).head? =
      if xs.dropWhile p = [] then none else some ((xs.dropWhile p).takeWhile fun x => !p x) := by
  induction xs with
  | nil => simp
  | cons x xs ih =>
      cases same : p x with
      | true =>
          rw [List.splitOnP_cons_eq_if_modifyHead, if_pos same, List.filter_cons_of_neg (by simp),
            ih, List.dropWhile_cons_of_pos same]
      | false =>
          have first := head?_splitOnP (p := p) (x :: xs)
          obtain ⟨head, fields, eq⟩ := List.exists_cons_of_ne_nil (List.splitOnP_ne_nil p (x :: xs))
          rw [eq, List.head?_cons, Option.some.injEq] at first
          have nonempty : (!head.isEmpty) = true := by rw [first]; simp [same]
          rw [eq, List.filter_cons, if_pos nonempty, List.head?_cons, first,
            List.dropWhile_cons_of_neg (by simp [same]), if_neg (List.cons_ne_nil _ _)]

end Words

variable [BEq α] [LawfulBEq α]

theorem append_separator (xs : List α) :
    xs ++ [sep] = ((xs.splitOn sep).map (· ++ [sep])).flatten := by
  rw [flatten_separated (List.splitOn_ne_nil sep xs), List.intercalate_splitOn]

theorem splitOn_append_separator (xs : List α) :
    (xs ++ [sep]).splitOn sep = xs.splitOn sep ++ [[]] :=
  List.splitOn_append_cons_self xs []

variable {w : List α}

theorem head_splitOn_iff (whole : sep ∉ w) (xs : List α) :
    (xs.splitOn sep).head? = some w ↔ w ++ [sep] <+: xs ++ [sep] := by
  constructor
  · intro first
    obtain ⟨rest, fields⟩ := List.head?_eq_some_iff.mp first
    rw [append_separator xs, fields, List.map_cons, List.flatten_cons]
    exact List.prefix_append _ _
  · rintro ⟨rest, spelled⟩
    have fields := congrArg (List.splitOn sep) spelled
    rw [splitOn_append_separator, List.append_assoc, List.singleton_append,
      List.splitOn_append_cons_self_of_not_mem whole] at fields
    obtain ⟨first, more, same⟩ := List.exists_cons_of_ne_nil (List.splitOn_ne_nil sep xs)
    rw [same, List.cons_append] at fields
    rw [same, List.head?_cons, (List.cons.inj fields).1]

theorem mem_splitOn_iff (whole : sep ∉ w) (xs : List α) :
    w ∈ xs.splitOn sep ↔ sep :: w ++ [sep] <:+: sep :: xs ++ [sep] := by
  constructor
  · intro mem
    obtain ⟨before, after, fields⟩ := List.append_of_mem mem
    have padded : sep :: xs ++ [sep] = sep :: (before.map (· ++ [sep])).flatten ++
        (w ++ [sep] ++ (after.map (· ++ [sep])).flatten) := by
      rw [List.cons_append, append_separator xs, fields]
      simp
    -- what stands before the field ends in a separator
    obtain ⟨front, ends⟩ : ∃ front, sep :: (before.map (· ++ [sep])).flatten = front ++ [sep] := by
      rcases List.eq_nil_or_concat' before with rfl | ⟨before, last, rfl⟩
      · exact ⟨[], rfl⟩
      · exact ⟨sep :: (before.map (· ++ [sep])).flatten ++ last, by simp⟩
    refine ⟨front, (after.map (· ++ [sep])).flatten, ?_⟩
    rw [padded, ends]
    simp
  · rintro ⟨front, back, spelled⟩
    have fields := congrArg (List.splitOn sep) spelled
    have left : front ++ (sep :: w ++ [sep]) ++ back = front ++ sep :: (w ++ sep :: back) := by
      simp
    have right : (sep :: xs ++ [sep]).splitOn sep = [] :: (xs.splitOn sep ++ [[]]) := by
      have := List.splitOn_append_cons_self (a := sep) [] (xs ++ [sep])
      rw [List.nil_append, splitOn_append_separator] at this
      simpa using this
    rw [left, right, List.splitOn_append_cons_self,
      List.splitOn_append_cons_self_of_not_mem whole] at fields
    obtain ⟨first, before, same⟩ := List.exists_cons_of_ne_nil (List.splitOn_ne_nil sep front)
    rw [same, List.cons_append] at fields
    obtain ⟨after, last, same⟩ :=
      (List.eq_nil_or_concat' (back.splitOn sep)).resolve_left (List.splitOn_ne_nil sep back)
    have inner := (List.cons.inj fields).2
    rw [same, ← List.cons_append, ← List.append_assoc] at inner
    have kept := (List.append_inj' inner rfl).1
    rw [← kept]
    simp

/-- A field behind the first one has a separator before it. -/
theorem mem_tail_splitOn {xs : List α} (mem : w ∈ (xs.splitOn sep).tail) :
    ∃ before after, xs = before ++ sep :: (w ++ after) := by
  have whole : [sep].intercalate (xs.splitOn sep) = xs := List.intercalate_splitOn sep
  obtain ⟨first, rest, fields⟩ := List.exists_cons_of_ne_nil (List.splitOn_ne_nil sep xs)
  rw [fields] at mem whole
  rw [List.tail_cons] at mem
  rw [← whole]
  clear fields whole
  induction rest generalizing first with
  | nil => cases mem
  | cons second rest ih =>
      rcases List.mem_cons.mp mem with rfl | mem
      · cases rest with
        | nil => exact ⟨first, [], by simp [List.intercalate]⟩
        | cons third rest =>
            exact ⟨first, sep :: [sep].intercalate (third :: rest), by simp [List.intercalate]⟩
      · obtain ⟨before, after, eq⟩ := ih second mem
        have split : [sep].intercalate (first :: second :: rest) =
            first ++ sep :: [sep].intercalate (second :: rest) := by simp [List.intercalate]
        exact ⟨first ++ sep :: before, after, by rw [split, eq]; simp⟩

end Text
