import Mathlib.Data.List.Nodup

/-!
The rows of a table that transactions write side by side. A version that is not yet
committed carries its writer: nobody else sees it, and whoever inserts the same key
waits for the writer to end. Every statement reads what is committed when it starts.
-/
namespace Relational
universe u v w
variable {P : Type u} {ρ : Type v} {κ : Type w} [DecidableEq P] [DecidableEq κ]

structure Version (P : Type u) (ρ : Type v) where
  row : ρ
  /-- The transaction that has inserted it and is still open. -/
  writer : Option P

abbrev Versions (P : Type u) (ρ : Type v) := List (Version P ρ)

namespace Version
variable (p : P) (v : Version P ρ)

def Visible : Prop := v.writer = none ∨ v.writer = some p

instance : Decidable (v.Visible p) := inferInstanceAs (Decidable (_ ∨ _))

/-- The version once the transaction of `p` has ended well. -/
def commit : Version P ρ := if v.writer = some p then { v with writer := none } else v

@[simp] theorem commit_row : (v.commit p).row = v.row := by
  unfold commit
  split <;> rfl

theorem visible_commit {q : P} (h : v.Visible q) : (v.commit p).Visible q := by
  unfold commit
  split
  · exact .inl rfl
  · exact h

theorem commit_of_visible (h : v.Visible p) : (v.commit p).writer = none := by
  unfold commit
  split
  · rfl
  · rename_i other
    exact h.resolve_right other

end Version

namespace Versions
variable (key : ρ → κ) (p : P) (row : ρ) (versions : Versions P ρ)

/-- What a statement of `p` reads. -/
def visible : List ρ := (versions.filter fun v => v.Visible p).map Version.row

/-- What everybody reads. -/
def committed : List ρ := (versions.filter fun v => v.writer = none).map Version.row

/-- `INSERT … ON CONFLICT (key) DO NOTHING`. It waits while another open transaction has
inserted the key. -/
def insertOrIgnore : Option (Versions P ρ) :=
  if versions.any fun v => key v.row = key row ∧ ¬ v.Visible p then none
  else if versions.any fun v => key v.row = key row then some versions
  else some (versions ++ [⟨row, some p⟩])

def commit : Versions P ρ := versions.map (Version.commit p)

def abort : Versions P ρ := versions.filter fun v => v.writer ≠ some p

/-- No key is there twice, whoever has inserted it. -/
def Unique : Prop := (versions.map fun v => key v.row).Nodup

variable {key p row versions} {q : P} {after : Versions P ρ} {x : ρ}

theorem mem_visible : x ∈ visible p versions ↔ ∃ v ∈ versions, v.Visible p ∧ v.row = x := by
  simp [visible, and_assoc]

omit [DecidableEq P] in
theorem mem_committed : x ∈ committed versions ↔ ∃ v ∈ versions, v.writer = none ∧ v.row = x := by
  simp [committed, and_assoc]

/-- An insert leaves the versions as they are, because one with the key is visible, or
adds one. -/
theorem insertOrIgnore_cases (h : insertOrIgnore key p row versions = some after) :
    (after = versions ∧ ∃ v ∈ versions, v.Visible p ∧ key v.row = key row) ∨
      after = versions ++ [⟨row, some p⟩] ∧ ∀ v ∈ versions, key v.row ≠ key row := by
  unfold insertOrIgnore at h
  split at h
  · cases h
  · rename_i free
    simp only [List.any_eq_true, decide_eq_true_eq, not_exists, not_and, not_not] at free
    split at h
    · rename_i there
      simp only [List.any_eq_true, decide_eq_true_eq] at there
      obtain ⟨v, mem, same⟩ := there
      cases h
      exact .inl ⟨rfl, v, mem, free v mem same, same⟩
    · rename_i absent
      cases h
      exact .inr ⟨rfl, by simpa using absent⟩

/-- After an insert the inserter sees a row with the key. -/
theorem visible_of_insertOrIgnore (h : insertOrIgnore key p row versions = some after) :
    ∃ x ∈ visible p after, key x = key row := by
  rcases insertOrIgnore_cases h with ⟨rfl, v, mem, sees, same⟩ | ⟨rfl, _⟩
  · exact ⟨v.row, mem_visible.mpr ⟨v, mem, sees, rfl⟩, same⟩
  · exact ⟨row, mem_visible.mpr ⟨_, List.mem_append_right _ (List.mem_singleton_self _), .inr rfl,
      rfl⟩, rfl⟩

theorem Unique.insertOrIgnore (unique : Unique key versions)
    (h : insertOrIgnore key p row versions = some after) : Unique key after := by
  rcases insertOrIgnore_cases h with ⟨rfl, _⟩ | ⟨rfl, absent⟩
  · exact unique
  · rw [Unique, List.map_append]
    refine List.Nodup.append unique (List.nodup_singleton _) ?_
    simp only [List.map_cons, List.map_nil, List.disjoint_singleton, List.mem_map, not_exists,
      not_and]
    exact absent

omit [DecidableEq κ] in
theorem Unique.commit (unique : Unique key versions) (p : P) : Unique key (commit p versions) := by
  simpa [Unique, Versions.commit, Function.comp_def] using unique

omit [DecidableEq κ] in
theorem Unique.abort (unique : Unique key versions) (p : P) : Unique key (abort p versions) :=
  List.Nodup.sublist (List.filter_sublist.map _) unique

/-! What a transaction reads stays there until it ends itself. -/

theorem mem_of_insertOrIgnore (h : insertOrIgnore key p row versions = some after)
    {v : Version P ρ} (mem : v ∈ versions) : v ∈ after := by
  rcases insertOrIgnore_cases h with ⟨rfl, _⟩ | ⟨rfl, _⟩
  · exact mem
  · exact List.mem_append_left _ mem

theorem visible_insertOrIgnore (h : insertOrIgnore key p row versions = some after)
    (sees : x ∈ visible q versions) : x ∈ visible q after := by
  obtain ⟨v, mem, shown⟩ := mem_visible.mp sees
  exact mem_visible.mpr ⟨v, mem_of_insertOrIgnore h mem, shown⟩

theorem visible_commit (sees : x ∈ visible q versions) : x ∈ visible q (commit p versions) := by
  obtain ⟨v, mem, shown, rfl⟩ := mem_visible.mp sees
  exact mem_visible.mpr ⟨_, List.mem_map_of_mem mem, v.visible_commit p shown, v.commit_row p⟩

theorem visible_abort (other : q ≠ p) (sees : x ∈ visible q versions) :
    x ∈ visible q (abort p versions) := by
  obtain ⟨v, mem, shown, rfl⟩ := mem_visible.mp sees
  refine mem_visible.mpr ⟨v, List.mem_filter.mpr ⟨mem, ?_⟩, shown, rfl⟩
  rcases shown with ended | mine
  · simp [ended]
  · simpa [mine] using other

/-- What the transaction reads is committed once it has ended well. -/
theorem committed_commit (sees : x ∈ visible p versions) : x ∈ committed (commit p versions) := by
  obtain ⟨v, mem, shown, rfl⟩ := mem_visible.mp sees
  exact mem_committed.mpr ⟨_, List.mem_map_of_mem mem, v.commit_of_visible p shown, v.commit_row p⟩

theorem visible_of_committed (there : x ∈ committed versions) : x ∈ visible q versions := by
  obtain ⟨v, mem, ended, rfl⟩ := mem_committed.mp there
  exact mem_visible.mpr ⟨v, mem, .inl ended, rfl⟩

/-! What is committed stays. -/

theorem committed_insertOrIgnore (h : insertOrIgnore key p row versions = some after)
    (there : x ∈ committed versions) : x ∈ committed after := by
  obtain ⟨v, mem, ended⟩ := mem_committed.mp there
  exact mem_committed.mpr ⟨v, mem_of_insertOrIgnore h mem, ended⟩

theorem committed_of_commit (there : x ∈ committed versions) :
    x ∈ committed (commit p versions) := committed_commit (visible_of_committed there)

theorem committed_abort (there : x ∈ committed versions) : x ∈ committed (abort p versions) := by
  obtain ⟨v, mem, ended, rfl⟩ := mem_committed.mp there
  exact mem_committed.mpr ⟨v, List.mem_filter.mpr ⟨mem, by simp [ended]⟩, ended, rfl⟩

end Versions
end Relational
