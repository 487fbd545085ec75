import Mathlib.Logic.Basic

/-!
Runs of a labelled step function. `allowed` restricts the labels a run may take
in a state; the unrestricted runs are those of `Any`. A law about runs is proved
once by `Reaches.invariant` from what one step preserves.
-/
namespace Transition
universe u v
variable {σ : Type u} {α : Type v} {step : σ → α → Option σ}

inductive Reaches (step : σ → α → Option σ) (allowed : σ → α → Prop) (s : σ) : σ → Prop
  | refl : Reaches step allowed s s
  | next {t u : σ} (a : α) :
      Reaches step allowed s t → allowed t a → step t a = some u → Reaches step allowed s u

/-- No restriction on the labels. -/
def Any (_ : σ) (_ : α) : Prop := True

namespace Reaches
variable {allowed weaker : σ → α → Prop} {s t u : σ}

theorem trans (hst : Reaches step allowed s t) (htu : Reaches step allowed t u) :
    Reaches step allowed s u := by
  induction htu with
  | refl => exact hst
  | next a _ ha hstep ih => exact .next a ih ha hstep

theorem mono (h : ∀ t a, allowed t a → weaker t a) (hst : Reaches step allowed s t) :
    Reaches step weaker s t := by
  induction hst with
  | refl => exact .refl
  | next a _ ha hstep ih => exact .next a ih (h _ a ha) hstep

theorem any (hst : Reaches step allowed s t) : Reaches step Any s t :=
  hst.mono fun _ _ _ => trivial

/-- What holds at the start and is preserved by every allowed step holds at the
end of every run. -/
theorem invariant {I : σ → Prop} (hst : Reaches step allowed s t) (start : I s)
    (preserved : ∀ t a u, allowed t a → step t a = some u → I t → I u) : I t := by
  induction hst with
  | refl => exact start
  | next a _ ha hstep ih => exact preserved _ a _ ha hstep ih

/-- The same with the run so far at hand, for a law that looks back at it. -/
theorem invariantAlong {I : σ → Prop} (hst : Reaches step allowed s t) (start : I s)
    (preserved : ∀ t a u, Reaches step allowed s t → allowed t a → step t a = some u →
      I t → I u) : I t := by
  induction hst with
  | refl => exact start
  | next a before ha hstep ih => exact preserved _ a _ before ha hstep ih

end Reaches

/-- The state after a list of labels, when every one of them is enabled. -/
def execute (step : σ → α → Option σ) : σ → List α → Option σ
  | s, [] => some s
  | s, a :: as => (step s a).bind fun t => execute step t as

theorem reaches_of_execute {allowed : σ → α → Prop} {s t : σ} {as : List α}
    (run : execute step s as = some t) (ok : ∀ a ∈ as, ∀ s, allowed s a) :
    Reaches step allowed s t := by
  induction as generalizing s with
  | nil => cases run; exact .refl
  | cons a as ih =>
      obtain ⟨r, first, rest⟩ := Option.bind_eq_some_iff.mp run
      have head : Reaches step allowed s r := .next a .refl (ok a (by simp) s) first
      exact head.trans (ih rest fun b hb => ok b (by simp [hb]))

/-- Where the labels lead, or the start if one of them is not enabled. -/
def final (step : σ → α → Option σ) (s : σ) (as : List α) : σ := (execute step s as).getD s

theorem execute_final {s : σ} {as : List α} {β : Type v} {view : σ → β} {b : β}
    (run : (execute step s as).map view = some b) :
    execute step s as = some (final step s as) := by
  obtain ⟨t, ends, _⟩ := Option.map_eq_some_iff.mp run
  rw [final, ends]
  rfl

theorem view_final {s : σ} {as : List α} {β : Type v} {view : σ → β} {b : β}
    (run : (execute step s as).map view = some b) : view (final step s as) = b := by
  obtain ⟨t, ends, rfl⟩ := Option.map_eq_some_iff.mp run
  rw [final, ends]
  rfl

/-- A run on concrete labels, with what is to be known of its end: one evaluation
gives both. -/
theorem reaches_final {allowed : σ → α → Prop} {s : σ} {as : List α} {β : Type v} (view : σ → β)
    {b : β} (run : (execute step s as).map view = some b) (ok : ∀ a ∈ as, ∀ s, allowed s a) :
    Reaches step allowed s (final step s as) ∧ view (final step s as) = b := by
  refine ⟨?_, view_final run⟩
  obtain ⟨t, ends, rfl⟩ := Option.map_eq_some_iff.mp run
  rw [final, ends]
  exact reaches_of_execute ends ok

/-- The same when the first label is allowed where it is taken. -/
theorem reaches_final_cons {allowed : σ → α → Prop} {s : σ} {a : α} {as : List α} {β : Type v}
    (view : σ → β) {b : β} (run : (execute step s (a :: as)).map view = some b)
    (head : allowed s a) (ok : ∀ a ∈ as, ∀ s, allowed s a) :
    Reaches step allowed s (final step s (a :: as)) ∧ view (final step s (a :: as)) = b := by
  refine ⟨?_, view_final run⟩
  obtain ⟨t, ends, rfl⟩ := Option.map_eq_some_iff.mp run
  rw [final, ends]
  obtain ⟨r, first, rest⟩ := Option.bind_eq_some_iff.mp ends
  exact (Reaches.next a .refl head first).trans (reaches_of_execute rest ok)

/-- The step, where its label meets the condition. -/
def guarded (step : σ → α → Option σ) (P : σ → α → Prop) [∀ s a, Decidable (P s a)]
    (s : σ) (a : α) : Option σ := if P s a then step s a else none

/-- A run that one evaluation finds, with the conditions of its steps. -/
theorem reaches_of_guarded {P : σ → α → Prop} [∀ s a, Decidable (P s a)] {s : σ} {as : List α}
    {β : Type v} (view : σ → β) {b : β}
    (run : (execute (guarded step P) s as).map view = some b) :
    Reaches step P s (final step s as) ∧ view (final step s as) = b := by
  have follow : ∀ as s t, execute (guarded step P) s as = some t →
      execute step s as = some t ∧ Reaches step P s t := by
    intro as
    induction as with
    | nil =>
        intro s t run
        cases run
        exact ⟨rfl, .refl⟩
    | cons a as ih =>
        intro s t run
        obtain ⟨r, first, rest⟩ := Option.bind_eq_some_iff.mp run
        unfold guarded at first
        split at first
        · rename_i met
          have head : Reaches step P s r := .next a .refl met first
          exact ⟨Option.bind_eq_some_iff.mpr ⟨r, first, (ih r t rest).1⟩,
            head.trans (ih r t rest).2⟩
        · cases first
  obtain ⟨t, ends, rfl⟩ := Option.map_eq_some_iff.mp run
  obtain ⟨same, reaches⟩ := follow as s t ends
  rw [final, same]
  exact ⟨reaches, rfl⟩

/-! What holds along the way of a list of labels. -/

/-- Every label meets the condition in the state where it is taken. -/
def Along (step : σ → α → Option σ) (P : σ → α → Prop) : σ → List α → Prop
  | _, [] => True
  | s, a :: as => P s a ∧ ∀ t, step s a = some t → Along step P t as

/-- Some label meets the condition in the state where it is taken. -/
def Sometime (step : σ → α → Option σ) (P : σ → α → Prop) : σ → List α → Prop
  | _, [] => False
  | s, a :: as => P s a ∨ ∃ t, step s a = some t ∧ Sometime step P t as

section Along
variable {P Q : σ → α → Prop}

instance Along.decidable [∀ s a, Decidable (P s a)] : ∀ s as, Decidable (Along step P s as)
  | _, [] => isTrue trivial
  | s, a :: as =>
      have : Decidable (∀ t, step s a = some t → Along step P t as) :=
        match step s a with
        | none => isTrue fun _ next => nomatch next
        | some t => match Along.decidable t as with
            | isTrue along => isTrue fun _ next => Option.some.inj next ▸ along
            | isFalse breaks => isFalse fun along => breaks (along t rfl)
      inferInstanceAs (Decidable (_ ∧ _))

theorem along_of_labels {s : σ} {as : List α} (h : ∀ a ∈ as, ∀ s, P s a) : Along step P s as := by
  induction as generalizing s with
  | nil => trivial
  | cons a as ih =>
      exact ⟨h a List.mem_cons_self s, fun t _ => ih fun b mem => h b (List.mem_cons_of_mem a mem)⟩

/-- Two conditions that agree wherever an invariant holds agree along the way, if the
invariant lasts as long as they are met. -/
theorem along_congr {I : σ → Prop} (agree : ∀ s a, I s → (P s a ↔ Q s a))
    (kept : ∀ s a t, I s → P s a → step s a = some t → I t) {s : σ} (start : I s)
    (as : List α) : Along step P s as ↔ Along step Q s as := by
  induction as generalizing s with
  | nil => exact Iff.rfl
  | cons a as ih =>
      constructor
      · rintro ⟨here, later⟩
        exact ⟨(agree s a start).mp here, fun t next =>
          (ih (kept s a t start here next)).mp (later t next)⟩
      · rintro ⟨here, later⟩
        have met := (agree s a start).mpr here
        exact ⟨met, fun t next => (ih (kept s a t start met next)).mpr (later t next)⟩

theorem Sometime.mono (h : ∀ s a, P s a → Q s a) {s : σ} {as : List α}
    (sometime : Sometime step P s as) : Sometime step Q s as := by
  induction as generalizing s with
  | nil => exact sometime
  | cons a as ih =>
      rcases sometime with here | ⟨t, next, later⟩
      · exact .inl (h s a here)
      · exact .inr ⟨t, next, ih later⟩

end Along

end Transition
