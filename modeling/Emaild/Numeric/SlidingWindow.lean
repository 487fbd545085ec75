import Mathlib.Algebra.Order.Group.Defs
import Mathlib.Data.List.Count

/-!
Rolling windows over a log of event times. If an event is admitted only while
fewer than `limit` events of the log lie in the window that ends with it, then
every window, wherever it starts, holds at most `limit` events.
-/
namespace SlidingWindow
universe u
variable {τ : Type u} [LinearOrder τ]

/-- The number of events at or after `cutoff`. -/
def since (cutoff : τ) (log : List τ) : Nat := log.countP fun t => cutoff ≤ t

/-- A later cutoff counts no more. -/
theorem since_anti {c₁ c₂ : τ} (h : c₁ ≤ c₂) (log : List τ) :
    since c₂ log ≤ since c₁ log := by
  apply List.countP_mono_left
  intro t _ ht
  simp only [decide_eq_true_eq] at ht ⊢
  exact h.trans ht

/-- What a limiter keeps of a log: the events after `cutoff`. -/
def prune (cutoff : τ) (log : List τ) : List τ := log.filter fun t => cutoff < t

/-- A later cutoff prunes what an earlier one has left as it prunes the log. -/
theorem prune_prune {c₁ c₂ : τ} (h : c₁ ≤ c₂) (log : List τ) :
    prune c₂ (prune c₁ log) = prune c₂ log := by
  unfold prune
  rw [List.filter_filter]
  refine List.filter_congr fun t _ => ?_
  rw [Bool.eq_iff_iff, Bool.and_eq_true, decide_eq_true_eq, decide_eq_true_eq]
  exact and_iff_left_of_imp h.trans_lt

/-- Nothing is left of events that are over. -/
theorem prune_eq_nil {cutoff : τ} {log : List τ} (past : ∀ t ∈ log, t ≤ cutoff) :
    prune cutoff log = [] :=
  List.filter_eq_nil_iff.mpr fun t mem => by simpa using past t mem

theorem prune_append (cutoff : τ) (log more : List τ) :
    prune cutoff (log ++ more) = prune cutoff log ++ prune cutoff more :=
  List.filter_append ..

/-- Its first event is dropped once the cutoff has come to it. -/
theorem length_prune_lt {cutoff first : τ} (rest : List τ) (past : first ≤ cutoff) :
    (prune cutoff (first :: rest)).length < (first :: rest).length := by
  unfold prune
  rw [List.filter_cons_of_neg (by simpa using past)]
  exact Nat.lt_succ_of_le (List.length_filter_le ..)

section Group
variable [AddCommGroup τ]

/-- Every closed interval of length `width` holds at most `limit` events. -/
def Within (limit : Nat) (width : τ) (log : List τ) : Prop :=
  ∀ start, log.countP (fun t => start ≤ t ∧ t ≤ start + width) ≤ limit

theorem within_nil (limit : Nat) (width : τ) : Within limit width [] :=
  fun _ => Nat.zero_le _

/-- An admitted event keeps the bound: a window holding it starts no earlier
than `width` before it, so it sees only what the admission counted. -/
theorem Within.append [IsOrderedAddMonoid τ] {limit : Nat} {width now : τ} {log : List τ}
    (h : Within limit width log) (room : since (now - width) log < limit) :
    Within limit width (log ++ [now]) := by
  intro start
  rw [List.countP_append, List.countP_singleton]
  by_cases inside : start ≤ now ∧ now ≤ start + width
  · have covered : log.countP (fun t => start ≤ t ∧ t ≤ start + width) ≤
        since (now - width) log := by
      apply List.countP_mono_left
      intro t _ ht
      simp only [decide_eq_true_eq] at ht ⊢
      exact (sub_le_iff_le_add.mpr inside.2).trans ht.1
    simp only [inside, and_self, decide_true, if_true]
    omega
  · simp only [inside, decide_false, Bool.false_eq_true, if_false, Nat.add_zero]
    exact h start

/-- Every half-open interval of length `width` holds at most `limit` events. -/
def WithinOpen (limit : Nat) (width : τ) (log : List τ) : Prop :=
  ∀ start, log.countP (fun t => start ≤ t ∧ t < start + width) ≤ limit

theorem withinOpen_nil (limit : Nat) (width : τ) : WithinOpen limit width [] :=
  fun _ => Nat.zero_le _

/-- An event that is admitted while the limiter keeps fewer than `limit` keeps the bound. -/
theorem WithinOpen.append [IsOrderedAddMonoid τ] {limit : Nat} {width now : τ} {log : List τ}
    (h : WithinOpen limit width log) (room : (prune (now - width) log).length < limit) :
    WithinOpen limit width (log ++ [now]) := by
  intro start
  rw [List.countP_append, List.countP_singleton]
  by_cases inside : start ≤ now ∧ now < start + width
  · have covered : log.countP (fun t => start ≤ t ∧ t < start + width) ≤
        (prune (now - width) log).length := by
      unfold prune
      rw [← List.countP_eq_length_filter]
      apply List.countP_mono_left
      intro t _ ht
      simp only [decide_eq_true_eq] at ht ⊢
      exact (sub_lt_iff_lt_add.mpr inside.2).trans_le ht.1
    simp only [inside, and_self, decide_true, if_true]
    omega
  · simp only [inside, decide_false, Bool.false_eq_true, if_false, Nat.add_zero]
    exact h start

/-- As long as the oldest event of a window has not left it, the window holds all of them. -/
theorem since_eq_of_oldest [IsOrderedAddMonoid τ] {width now later oldest : τ} {log : List τ}
    (least : ∀ t ∈ log, now - width ≤ t → oldest ≤ t) (forward : now ≤ later)
    (inside : later ≤ oldest + width) : since (later - width) log = since (now - width) log := by
  unfold since
  refine List.countP_congr fun t mem => ?_
  rw [decide_eq_true_eq, decide_eq_true_eq]
  constructor
  · exact (sub_le_sub_right forward width).trans
  · exact fun counted => (sub_le_iff_le_add.mpr inside).trans (least t mem counted)

/-- When it has left it, the window holds fewer. -/
theorem since_lt_of_oldest [IsOrderedAddMonoid τ] {width now later oldest : τ} {log : List τ}
    (mem : oldest ∈ log) (counted : now - width ≤ oldest) (gone : oldest + width < later) :
    since (later - width) log < since (now - width) log := by
  have past : oldest < later - width := lt_sub_iff_add_lt.mpr gone
  obtain ⟨before, after, rfl⟩ := List.append_of_mem mem
  have fewer := fun l => since_anti (counted.trans past.le) l
  have left := fewer before
  have right := fewer after
  unfold since at left right ⊢
  simp only [List.countP_append, List.countP_cons, decide_eq_true_eq, if_pos counted,
    if_neg past.not_ge]
  omega

/-- Any `limit + 1` events that follow one another span at least `width`. -/
def Spaced (limit : Nat) (width : τ) (log : List τ) : Prop :=
  ∀ i (h : i + limit < log.length), log[i] + width ≤ log[i + limit]

theorem spaced_nil (limit : Nat) (width : τ) : Spaced limit width [] := nofun

/-- An event that is admitted while the limiter keeps fewer than `limit` of the events before
it is as far from the one that many before it. -/
theorem Spaced.append [IsOrderedAddMonoid τ] {limit : Nat} {width now : τ} {log : List τ}
    (h : Spaced limit width log) (ordered : log.Pairwise (· ≤ ·))
    (room : (prune (now - width) log).length < limit) : Spaced limit width (log ++ [now]) := by
  intro i inside
  rw [List.length_append, List.length_singleton] at inside
  by_cases earlier : i + limit < log.length
  · rw [List.getElem_append_left earlier, List.getElem_append_left (by omega)]
    exact h i earlier
  · have last : i + limit = log.length := by omega
    have here : i < log.length := by omega
    simp only [last, List.getElem_concat_length, List.getElem_append_left here]
    by_contra short
    have recent : now - width < log[i] := sub_lt_iff_lt_add.mpr (not_le.mp short)
    have kept : prune (now - width) (log.drop i) = log.drop i := by
      refine List.filter_eq_self.mpr fun t mem => decide_eq_true ?_
      rw [List.drop_eq_getElem_cons here] at mem
      rcases List.mem_cons.mp mem with rfl | later
      · exact recent
      · have order : (log.drop i).Pairwise (· ≤ ·) := ordered.drop
        rw [List.drop_eq_getElem_cons here, List.pairwise_cons] at order
        exact recent.trans_le (order.1 t later)
    rw [← List.take_append_drop i log, prune_append, kept, List.length_append,
      List.length_drop] at room
    omega

end Group
end SlidingWindow
