import Mathlib.Data.List.Basic

/-!
A store with the values it has had. A transaction that is not serialized against the
others reads some of these values, each statement its own, and commits on the last of
them. What every commit keeps of the value before it, the last value keeps of them all.
-/
namespace Transition
universe u
variable {σ : Type u}

structure History (σ : Type u) where
  current : σ
  past : List σ

namespace History
variable (h : History σ)

def start (s : σ) : History σ := ⟨s, []⟩

def commit (s : σ) : History σ := ⟨s, h.current :: h.past⟩

/-- What is read before the last `age` commits, if there have been as many. -/
def read (age : Nat) : σ := (h.current :: h.past).getD age h.current

/-- The values that the later statements of a transaction find, up to its commit. -/
def meets (ages : List Nat) (n : Nat) : σ := (ages.map h.read).getD n h.current

@[simp] theorem current_start (s : σ) : (start s).current = s := rfl

@[simp] theorem current_commit (s : σ) : (h.commit s).current = s := rfl

/-- All the values, the last one included. -/
def All (P : σ → Prop) : Prop := ∀ s ∈ h.current :: h.past, P s

variable {h}

theorem read_mem (age : Nat) : h.read age ∈ h.current :: h.past := by
  unfold read
  rw [List.getD_eq_getElem?_getD]
  cases found : (h.current :: h.past)[age]? with
  | none => exact List.mem_cons_self
  | some s => exact List.mem_of_getElem? found

theorem meets_mem (ages : List Nat) (n : Nat) : h.meets ages n ∈ h.current :: h.past := by
  unfold meets
  rw [List.getD_eq_getElem?_getD]
  cases found : (ages.map h.read)[n]? with
  | none => exact List.mem_cons_self
  | some s =>
      obtain ⟨age, _, rfl⟩ := List.mem_map.mp (List.mem_of_getElem? found)
      exact read_mem age

theorem All.read {P : σ → Prop} (all : h.All P) (age : Nat) : P (h.read age) :=
  all _ (read_mem age)

theorem All.current {P : σ → Prop} (all : h.All P) : P h.current := all _ List.mem_cons_self

theorem All.start {P : σ → Prop} {s : σ} (holds : P s) : (History.start s).All P := by
  intro t mem
  rwa [List.mem_singleton.mp mem]

theorem All.commit {P : σ → Prop} {s : σ} (all : h.All P) (holds : P s) : (h.commit s).All P :=
  List.forall_mem_cons.mpr ⟨holds, all⟩

/-- A relation that every commit keeps holds between each value and the last one. -/
theorem All.grow {R : σ → σ → Prop} {s : σ} (refl : R s s)
    (trans : ∀ {r t u}, R r t → R t u → R r u) (all : h.All fun r => R r h.current)
    (kept : R h.current s) : (h.commit s).All fun r => R r (h.commit s).current :=
  All.commit (fun r mem => trans (all r mem) kept) refl

end History
end Transition
