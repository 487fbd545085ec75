import Mathlib.Algebra.Ring.Nat
import Mathlib.Data.List.Dedup
import Mathlib.Data.List.Sort

/-!
Grouped and joined queries. A grouping answers with one row for each key, an outer
join keeps a row that nothing matches, and an order leaves rows of one rank in any
order, so an ordered query has many answers.
-/
namespace Relational
universe u v w
variable {α : Type u} {β : Type v} {κ : Type w}

/-- `SELECT key, aggregate(…) … GROUP BY key` -/
def groupBy [DecidableEq κ] (key : α → κ) (aggregate : κ → List α → β) (rows : List α) : List β :=
  (rows.map key).dedup.map fun k => aggregate k (rows.filter fun a => key a = k)

/-- `left LEFT OUTER JOIN right ON on` -/
def leftJoin (on : α → β → Bool) (left : List α) (right : List β) : List (α × Option β) :=
  left.flatMap fun a =>
    match right.filter (on a) with
    | [] => [(a, none)]
    | b :: bs => (b :: bs).map fun b => (a, some b)

/-- The answers to `… ORDER BY rank DESC`. -/
structure Descending (rank : α → Nat) (rows answer : List α) : Prop where
  perm : answer.Perm rows
  sorted : answer.Pairwise fun a b => rank b ≤ rank a

section Group
variable [DecidableEq κ] {key : α → κ} {aggregate : κ → List α → β} {rows rows' : List α}

/-- A grouping does not depend on the order of its rows, if its aggregate does not. -/
theorem groupBy_perm (same : rows.Perm rows')
    (unordered : ∀ k l l', l.Perm l' → aggregate k l = aggregate k l') :
    (groupBy key aggregate rows).Perm (groupBy key aggregate rows') := by
  have values : groupBy key aggregate rows' = (rows'.map key).dedup.map fun k =>
      aggregate k (rows.filter fun a => key a = k) :=
    List.map_congr_left fun k _ => unordered k _ _ (same.filter _).symm
  rw [values]
  exact ((same.map key).dedup).map _

end Group

section Join
variable {on : α → β → Bool} {left : List α} {right : List β}

theorem mem_leftJoin {a : α} {b : Option β} : (a, b) ∈ leftJoin on left right ↔
    a ∈ left ∧ ((∃ b' ∈ right, on a b' = true ∧ b = some b') ∨
      (b = none ∧ ∀ b' ∈ right, on a b' = false)) := by
  rw [leftJoin, List.mem_flatMap]
  constructor
  · rintro ⟨a', mem, row⟩
    split at row
    · rename_i unmatched
      obtain ⟨rfl, rfl⟩ := Prod.mk.inj (List.mem_singleton.mp row)
      exact ⟨mem,
        .inr ⟨rfl, fun b' there => by simpa using List.filter_eq_nil_iff.mp unmatched b' there⟩⟩
    · rename_i c cs matching
      obtain ⟨b', matched, same⟩ := List.mem_map.mp row
      obtain ⟨rfl, rfl⟩ := Prod.mk.inj same
      obtain ⟨there, matched⟩ := List.mem_filter.mp (matching ▸ matched)
      exact ⟨mem, .inl ⟨b', there, matched, rfl⟩⟩
  · rintro ⟨mem, ⟨b', there, matched, rfl⟩ | ⟨rfl, unmatched⟩⟩
    · have listed : b' ∈ right.filter (on a) := List.mem_filter.mpr ⟨there, matched⟩
      refine ⟨a, mem, ?_⟩
      split
      · rename_i empty
        rw [empty] at listed
        cases listed
      · rename_i c cs matching
        exact List.mem_map_of_mem (matching ▸ listed)
    · refine ⟨a, mem, ?_⟩
      have empty : right.filter (on a) = [] := List.filter_eq_nil_iff.mpr fun b' there => by
        simp [unmatched b' there]
      rw [empty]
      exact List.mem_singleton_self _

/-- A count that passes over the rows without a match. -/
theorem countP_leftJoin {p : α × Option β → Bool} (matched : ∀ a, p (a, none) = false) :
    (leftJoin on left right).countP p =
      (left.map fun a => right.countP fun b => on a b && p (a, some b)).sum := by
  rw [leftJoin, List.countP_flatMap]
  refine congrArg List.sum (List.map_congr_left fun a _ => ?_)
  have rows : right.countP (fun b => on a b && p (a, some b)) =
      (right.filter (on a)).countP fun b => p (a, some b) := by
    rw [List.countP_filter]
    simp only [Bool.and_comm]
  rw [rows, Function.comp_apply]
  cases right.filter (on a) with
  | nil => simp [matched a]
  | cons b bs => rw [List.countP_map]; rfl

end Join

section Order
variable {rank : α → Nat} {rows rows' answer : List α}

theorem exists_descending (rank : α → Nat) (rows : List α) :
    ∃ answer, Descending rank rows answer :=
  ⟨rows.insertionSort fun a b => rank b ≤ rank a, List.perm_insertionSort _ rows,
    List.pairwise_insertionSort _ rows⟩

variable (rank answer) in
theorem descending_congr (same : rows.Perm rows') :
    Descending rank rows answer ↔ Descending rank rows' answer :=
  ⟨fun h => ⟨h.perm.trans same, h.sorted⟩, fun h => ⟨h.perm.trans same.symm, h.sorted⟩⟩

end Order

section Page
variable [LinearOrder κ] {rank : α → κ} {rows : List α} {a : α}

/-- In ascending order the first `n` rows are those that fewer than `n` rows stand before. -/
theorem mem_take_of_ascending (ascending : rows.Pairwise fun a b => rank a < rank b) (n : Nat) :
    a ∈ rows.take n ↔ a ∈ rows ∧ rows.countP (fun b => rank b < rank a) < n := by
  induction rows generalizing n with
  | nil => simp
  | cons first rest ih =>
      obtain ⟨least, ascending⟩ := List.pairwise_cons.mp ascending
      cases n with
      | zero => simp
      | succ n =>
          rw [List.take_succ_cons, List.mem_cons, List.mem_cons, ih ascending]
          constructor
          · rintro (rfl | ⟨mem, few⟩)
            · have lowest : (a :: rest).countP (fun b => rank b < rank a) = 0 := by
                refine List.countP_eq_zero.mpr fun b mem before => ?_
                cases mem with
                | head => simp at before
                | tail _ mem => exact lt_asymm (least b mem) (of_decide_eq_true before)
              exact ⟨.inl rfl, lowest ▸ Nat.succ_pos n⟩
            · refine ⟨.inr mem, ?_⟩
              rw [List.countP_cons_of_pos (by simpa using least a mem)]
              exact Nat.succ_lt_succ few
          · rintro ⟨rfl | mem, few⟩
            · exact .inl rfl
            · rw [List.countP_cons_of_pos (by simpa using least a mem)] at few
              exact .inr ⟨mem, Nat.lt_of_succ_lt_succ few⟩

/-- The first page of an ordered query. -/
theorem mem_take_insertionSort (distinct : (rows.map rank).Nodup) (n : Nat) :
    a ∈ (rows.insertionSort fun a b => rank a ≤ rank b).take n ↔
      a ∈ rows ∧ rows.countP (fun b => rank b < rank a) < n := by
  have perm := List.perm_insertionSort (fun a b => rank a ≤ rank b) rows
  have apart : (rows.insertionSort fun a b => rank a ≤ rank b).Pairwise
      fun a b => rank a ≠ rank b := List.pairwise_map.mp ((perm.map rank).nodup_iff.mpr distinct)
  have ascending := (List.pairwise_insertionSort (fun a b => rank a ≤ rank b) rows).imp₂
    (fun _ _ le ne => lt_of_le_of_ne le ne) apart
  rw [mem_take_of_ascending ascending, perm.mem_iff, perm.countP_eq]

end Page
end Relational
