import Mathlib.Data.List.Nodup
import Mathlib.Data.List.Perm.Basic

/-!
Tables whose rows are told apart by a key, as a relational store keeps them
under a primary key or a unique constraint. A table with two rows of one key
cannot be built. The lemmas describe every operation by what `find?` returns
afterwards, so that a proof about a table rarely looks at its list of rows.
-/
namespace Relational
universe u v
variable {κ : Type u} {α : Type v} {key : α → κ}

structure Table (key : α → κ) where
  rows : List α
  nodup : (rows.map key).Nodup

namespace Table

def empty : Table key := ⟨[], List.nodup_nil⟩

instance : Membership α (Table key) := ⟨fun t a => a ∈ t.rows⟩

theorem mem_def {t : Table key} {a : α} : a ∈ t ↔ a ∈ t.rows := Iff.rfl

theorem eq_of_rows {t u : Table key} (rows : t.rows = u.rows) : t = u := by
  cases t
  cases u
  cases rows
  rfl

theorem eq_of_key_eq {t : Table key} {a b : α} (ha : a ∈ t) (hb : b ∈ t)
    (h : key a = key b) : a = b :=
  List.inj_on_of_nodup_map t.nodup ha hb h

theorem not_mem_empty (a : α) : a ∉ (empty : Table key) := by
  simp [mem_def, empty]

/-- `UPDATE … WHERE p`: the change may not touch the key. -/
def update (t : Table key) (p : α → Bool) (f : α → α)
    (hf : ∀ a, key (f a) = key a := by intro _; rfl) : Table key where
  rows := t.rows.map fun a => if p a then f a else a
  nodup := by
    have same : (key ∘ fun a => if p a then f a else a) = key := by
      funext a
      by_cases h : p a <;> simp [h, hf]
    simpa only [List.map_map, same] using t.nodup

theorem mem_update (t : Table key) (p : α → Bool) (f : α → α) (hf : ∀ a, key (f a) = key a)
    {b : α} : b ∈ t.update p f hf ↔ ∃ a ∈ t, (if p a then f a else a) = b := by
  simp [mem_def, update]

/-- `DELETE … WHERE p`. -/
def delete (t : Table key) (p : α → Bool) : Table key where
  rows := t.rows.filter fun a => !p a
  nodup := t.nodup.sublist (List.filter_sublist.map key)

theorem mem_delete {t : Table key} {p : α → Bool} {a : α} :
    a ∈ t.delete p ↔ a ∈ t ∧ p a = false := by
  simp [mem_def, delete]

/-- `SELECT count(*) … WHERE p`. -/
def count (t : Table key) (p : α → Bool) : Nat := t.rows.countP p

/-- Distinct keys of rows that satisfy the test are no more than the count. -/
theorem length_le_count {t : Table key} {p : α → Bool} {ks : List κ} (distinct : ks.Nodup)
    (h : ∀ k ∈ ks, ∃ a ∈ t, key a = k ∧ p a = true) : ks.length ≤ t.count p := by
  have covered : ks ⊆ (t.rows.filter p).map key := by
    intro k hk
    obtain ⟨a, ha, same, hp⟩ := h k hk
    exact List.mem_map.mpr ⟨a, List.mem_filter.mpr ⟨ha, hp⟩, same⟩
  have bound := (List.subperm_of_subset distinct covered).length_le
  rwa [List.length_map, ← List.countP_eq_length_filter] at bound

section Counting
variable {t u : Table key} {p q : α → Bool}

theorem nodup_keys (t : Table key) (p : α → Bool) : ((t.rows.filter p).map key).Nodup :=
  t.nodup.sublist (List.filter_sublist.map key)

theorem length_keys (t : Table key) (p : α → Bool) :
    ((t.rows.filter p).map key).length = t.count p := by
  rw [List.length_map, count, List.countP_eq_length_filter]

/-- No more rows pass one test than rows of the same keys pass the other. -/
theorem count_le_count (h : ∀ a ∈ t, p a = true → ∃ b ∈ u, key b = key a ∧ q b = true) :
    t.count p ≤ u.count q := by
  rw [← length_keys]
  refine length_le_count (t.nodup_keys p) fun k hk => ?_
  obtain ⟨a, ha, rfl⟩ := List.mem_map.mp hk
  exact h a (List.mem_filter.mp ha).1 (List.mem_filter.mp ha).2

/-- The same when one more row, of a key of its own, passes the other test. -/
theorem count_lt_count {b : α} (mem : b ∈ u) (hb : q b = true)
    (h : ∀ a ∈ t, p a = true → key a ≠ key b ∧ ∃ b ∈ u, key b = key a ∧ q b = true) :
    t.count p < u.count q := by
  have keys : key b ∉ (t.rows.filter p).map key := by
    intro hk
    obtain ⟨a, ha, same⟩ := List.mem_map.mp hk
    exact (h a (List.mem_filter.mp ha).1 (List.mem_filter.mp ha).2).1 same
  rw [← length_keys]
  refine length_le_count (List.nodup_cons.mpr ⟨keys, t.nodup_keys p⟩) fun k hk => ?_
  rcases List.mem_cons.mp hk with rfl | hk
  · exact ⟨b, mem, rfl, hb⟩
  · obtain ⟨a, ha, rfl⟩ := List.mem_map.mp hk
    exact (h a (List.mem_filter.mp ha).1 (List.mem_filter.mp ha).2).2

/-- The same when the rows of one key are not looked at. -/
theorem count_le_succ [DecidableEq κ] (k : κ)
    (h : ∀ a ∈ t, p a = true → key a ≠ k → ∃ b ∈ u, key b = key a ∧ q b = true) :
    t.count p ≤ u.count q + 1 := by
  have others : (((t.rows.filter p).map key).erase k).length ≤ u.count q := by
    refine length_le_count ((t.nodup_keys p).erase k) fun k' hk => ?_
    obtain ⟨other, hk⟩ := (t.nodup_keys p).mem_erase_iff.mp hk
    obtain ⟨a, ha, rfl⟩ := List.mem_map.mp hk
    exact h a (List.mem_filter.mp ha).1 (List.mem_filter.mp ha).2 other
  have lengths := List.length_erase_add_one (l := (t.rows.filter p).map key) (a := k)
  rw [length_keys] at lengths
  by_cases hk : k ∈ (t.rows.filter p).map key
  · rw [← lengths hk]
    exact Nat.succ_le_succ others
  · rw [List.erase_of_not_mem hk, length_keys] at others
    exact Nat.le_succ_of_le others

end Counting

/-- A selection of one row. -/
theorem filter_eq_singleton {t : Table key} {p : α → Bool} {a : α} :
    t.rows.filter p = [a] ↔ (a ∈ t ∧ p a = true) ∧ ∀ b ∈ t, p b = true → b = a := by
  constructor
  · intro single
    have listed : ∀ b, b ∈ t ∧ p b = true ↔ b = a := fun b => by
      rw [mem_def, ← List.mem_filter, single, List.mem_singleton]
    exact ⟨(listed a).mpr rfl, fun b mem hb => (listed b).mp ⟨mem, hb⟩⟩
  · rintro ⟨⟨mem, ha⟩, only⟩
    have distinct : (t.rows.filter p).Nodup := (List.Nodup.of_map key t.nodup).filter p
    have listed : a ∈ t.rows.filter p := List.mem_filter.mpr ⟨mem, ha⟩
    have equal : ∀ b ∈ t.rows.filter p, b = a := fun b hb =>
      only b (List.mem_filter.mp hb).1 (List.mem_filter.mp hb).2
    match h : t.rows.filter p with
    | [] => rw [h] at listed; cases listed
    | [b] => rw [equal b (by simp [h])]
    | b :: c :: rest =>
        rw [h] at distinct equal
        have same : b = c := (equal b (by simp)).trans (equal c (by simp)).symm
        simp [same] at distinct

section Keyed
variable [DecidableEq κ]

def find? (t : Table key) (k : κ) : Option α := t.rows.find? fun a => key a = k

theorem find?_eq_some {t : Table key} {k : κ} {a : α} :
    t.find? k = some a ↔ a ∈ t ∧ key a = k := by
  constructor
  · intro h
    exact ⟨List.mem_of_find?_eq_some h, by simpa using List.find?_some h⟩
  · rintro ⟨ha, hk⟩
    cases h : t.find? k with
    | none =>
        have absent := List.find?_eq_none.mp h a ha
        simp [hk] at absent
    | some b =>
        have hb := List.mem_of_find?_eq_some h
        have hkb : key b = k := by simpa using List.find?_some h
        rw [eq_of_key_eq ha hb (hk.trans hkb.symm)]

theorem find?_of_mem {t : Table key} {a : α} (h : a ∈ t) : t.find? (key a) = some a :=
  find?_eq_some.mpr ⟨h, rfl⟩

theorem mem_of_find? {t : Table key} {k : κ} {a : α} (h : t.find? k = some a) : a ∈ t :=
  (find?_eq_some.mp h).1

theorem key_of_find? {t : Table key} {k : κ} {a : α} (h : t.find? k = some a) : key a = k :=
  (find?_eq_some.mp h).2

theorem find?_eq_none {t : Table key} {k : κ} : t.find? k = none ↔ ∀ a ∈ t, key a ≠ k := by
  simp [find?, List.find?_eq_none, mem_def]

@[simp] theorem find?_empty (k : κ) : (empty : Table key).find? k = none := rfl

theorem find?_update (t : Table key) (p : α → Bool) (f : α → α)
    (hf : ∀ a, key (f a) = key a) (k : κ) :
    (t.update p f hf).find? k = (t.find? k).map fun a => if p a then f a else a := by
  have same : (fun a => decide (key (if p a then f a else a) = k)) =
      fun a => decide (key a = k) := by
    funext a
    by_cases h : p a <;> simp [h, hf]
  simp only [find?, update, List.find?_map, Function.comp_def, same]

theorem find?_delete (t : Table key) (p : α → Bool) (k : κ) :
    (t.delete p).find? k = (t.find? k).filter fun a => !p a := by
  cases h : t.find? k with
  | none =>
      rw [find?_eq_none] at h
      exact find?_eq_none.mpr fun a mem => h a (mem_delete.mp mem).1
  | some a =>
      have mem := mem_of_find? h
      cases gone : p a with
      | false =>
          simp only [Option.filter, gone, Bool.not_false, if_true]
          exact find?_eq_some.mpr ⟨mem_delete.mpr ⟨mem, gone⟩, key_of_find? h⟩
      | true =>
          simp only [Option.filter, gone, Bool.not_true, Bool.false_eq_true, if_false]
          refine find?_eq_none.mpr fun b left same => ?_
          obtain ⟨there, stays⟩ := mem_delete.mp left
          rw [eq_of_key_eq there mem (same.trans (key_of_find? h).symm), gone] at stays
          cases stays

/-- The update that an ORM issues for one loaded object. -/
def modify (t : Table key) (k : κ) (f : α → α)
    (hf : ∀ a, key (f a) = key a := by intro _; rfl) : Table key :=
  t.update (fun a => key a = k) f hf

theorem mem_modify (t : Table key) (k : κ) (f : α → α) (hf : ∀ a, key (f a) = key a) {b : α} :
    b ∈ t.modify k f hf ↔ ∃ a ∈ t, (if key a = k then f a else a) = b := by
  simp [modify, mem_def, update]

theorem find?_modify (t : Table key) (k : κ) (f : α → α) (hf : ∀ a, key (f a) = key a)
    (k' : κ) :
    (t.modify k f hf).find? k' = if k' = k then (t.find? k').map f else t.find? k' := by
  rw [modify, find?_update]
  cases h : t.find? k' with
  | none => simp
  | some a =>
      have hk := key_of_find? h
      by_cases e : k' = k <;> simp [hk, e]

theorem find?_modify_self (t : Table key) (k : κ) (f : α → α)
    (hf : ∀ a, key (f a) = key a) : (t.modify k f hf).find? k = (t.find? k).map f := by
  rw [find?_modify, if_pos rfl]

/-- A selection that the modified row is not part of. -/
theorem filter_modify (t : Table key) (k : κ) (f : α → α) (hf : ∀ a, key (f a) = key a)
    {p : α → Bool} (outside : ∀ a ∈ t, key a = k → p a = false ∧ p (f a) = false) :
    (t.modify k f hf).rows.filter p = t.rows.filter p := by
  have same : t.rows.filter (p ∘ fun a => if key a = k then f a else a) = t.rows.filter p := by
    refine List.filter_congr fun a mem => ?_
    by_cases here : key a = k
    · simp [here, outside a mem here]
    · simp [here]
  have untouched : ∀ a ∈ t.rows.filter p, (if key a = k then f a else a) = a := by
    intro a listed
    obtain ⟨mem, selected⟩ := List.mem_filter.mp listed
    refine if_neg fun here => ?_
    rw [(outside a mem here).1] at selected
    cases selected
  simp only [modify, update, decide_eq_true_eq, List.filter_map, same]
  exact (List.map_congr_left untouched).trans (List.map_id _)

theorem modify_congr {t : Table key} {k : κ} {f g : α → α} {hf : ∀ a, key (f a) = key a}
    {hg : ∀ a, key (g a) = key a} (h : ∀ a ∈ t, key a = k → f a = g a) :
    t.modify k f hf = t.modify k g hg := by
  simp only [modify, update, mk.injEq]
  refine List.map_congr_left fun a mem => ?_
  by_cases e : key a = k <;> simp [e, h a mem]

/-- Insertion of a row whose key is known to be free. -/
def insert (t : Table key) (a : α) (free : t.find? (key a) = none) : Table key where
  rows := t.rows ++ [a]
  nodup := by
    rw [List.map_append, List.map_singleton, ← List.concat_eq_append]
    refine List.Nodup.concat ?_ t.nodup
    intro h
    obtain ⟨b, hb, hk⟩ := List.mem_map.mp h
    exact find?_eq_none.mp free b hb hk

theorem mem_insert {t : Table key} {a b : α} {free : t.find? (key a) = none} :
    b ∈ t.insert a free ↔ b ∈ t ∨ b = a := by
  simp [mem_def, insert]

/-- `mem_insert`, where it is to be applied without a goal that names the table. -/
theorem mem_insert_iff (t : Table key) (a : α) (free : t.find? (key a) = none) (b : α) :
    b ∈ t.insert a free ↔ b ∈ t ∨ b = a := mem_insert

theorem find?_insert (t : Table key) (a : α) (free : t.find? (key a) = none) (k : κ) :
    (t.insert a free).find? k = if k = key a then some a else t.find? k := by
  by_cases e : k = key a
  · subst e
    rw [if_pos rfl]
    exact find?_of_mem (mem_insert.mpr (.inr rfl))
  · rw [if_neg e]
    simp [find?, insert, Ne.symm e]

/-- `INSERT`: refused when the key is taken. -/
def insert? (t : Table key) (a : α) : Option (Table key) :=
  if free : t.find? (key a) = none then some (t.insert a free) else none

theorem insert?_eq_some {t u : Table key} {a : α} :
    t.insert? a = some u ↔ ∃ free, u = t.insert a free := by
  unfold insert?
  split
  · rename_i free
    exact ⟨fun h => ⟨free, (Option.some.inj h).symm⟩, fun ⟨_, h⟩ => by rw [h]⟩
  · rename_i taken
    exact ⟨fun h => (nomatch h), fun ⟨free, _⟩ => absurd free taken⟩

section Append
variable {t u : Table key} {new : List α} (rows : u.rows = t.rows ++ new)
include rows

/-- Rows that are added leave the others where they were. -/
theorem find?_of_append {k : κ} {a : α} (found : t.find? k = some a) : u.find? k = some a := by
  rw [← key_of_find? found]
  exact find?_of_mem (mem_def.mpr (rows ▸ List.mem_append_left new (mem_of_find? found)))

theorem find?_appended {a : α} (mem : a ∈ new) : u.find? (key a) = some a :=
  find?_of_mem (mem_def.mpr (rows ▸ List.mem_append_right t.rows mem))

/-- The keys of added rows were free. -/
theorem free_of_append {a : α} (mem : a ∈ new) : t.find? (key a) = none := by
  refine find?_eq_none.mpr fun b hb same => ?_
  have distinct := u.nodup
  rw [rows, List.map_append] at distinct
  exact List.disjoint_of_nodup_append distinct (List.mem_map_of_mem hb)
    (same ▸ List.mem_map_of_mem mem)

end Append

end Keyed
end Table

/-- Insertion-ordered dictionaries: assigning to a present key keeps its place. -/
abbrev Dict (κ : Type u) (β : Type v) := Table (Prod.fst : κ × β → κ)

namespace Dict
variable {β : Type v} [DecidableEq κ]

def get? (d : Dict κ β) (k : κ) : Option β := (d.find? k).map Prod.snd

def set (d : Dict κ β) (k : κ) (b : β) : Dict κ β :=
  if free : d.find? k = none then d.insert (k, b) free else d.modify k fun p => (p.1, b)

def ofList (l : List (κ × β)) : Dict κ β := l.foldl (fun d p => set d p.1 p.2) Table.empty

theorem find?_set (d : Dict κ β) (k : κ) (b : β) (k' : κ) :
    (set d k b).find? k' = if k' = k then some (k, b) else d.find? k' := by
  unfold set
  split
  · rename_i free
    exact Table.find?_insert d (k, b) free k'
  · rename_i taken
    rw [Table.find?_modify]
    by_cases e : k' = k
    · obtain ⟨p, hp⟩ := Option.ne_none_iff_exists'.mp taken
      have hk : p.1 = k := Table.key_of_find? hp
      simp [e, hp, hk]
    · simp [e]

theorem get?_set (d : Dict κ β) (k : κ) (b : β) (k' : κ) :
    (set d k b).get? k' = if k' = k then some b else d.get? k' := by
  rw [get?, find?_set]
  by_cases e : k' = k <;> simp [e, get?]

/-- Every key of the list is a key of the dictionary. -/
theorem find?_ofList_ne_none {l : List (κ × β)} {k : κ} {b : β} (h : (k, b) ∈ l) :
    (ofList l).find? k ≠ none := by
  suffices general : ∀ (l : List (κ × β)) (d : Dict κ β),
      (d.find? k ≠ none ∨ (k, b) ∈ l) →
        (l.foldl (fun d p => set d p.1 p.2) d).find? k ≠ none from
    general l Table.empty (.inr h)
  intro l
  induction l with
  | nil => rintro d (h | h) <;> first | exact h | cases h
  | cons q l ih =>
      intro d h
      apply ih
      rw [find?_set]
      by_cases e : k = q.1
      · simp [e]
      · rcases h with old | mem
        · exact .inl (by simpa [e] using old)
        · rcases List.mem_cons.mp mem with rfl | rest
          · exact absurd rfl e
          · exact .inr rest

/-- An entry that is found is one of the list. -/
theorem mem_of_find?_ofList {l : List (κ × β)} {k : κ} {p : κ × β}
    (h : (ofList l).find? k = some p) : p ∈ l := by
  suffices general : ∀ (l : List (κ × β)) (d : Dict κ β),
      (l.foldl (fun d p => set d p.1 p.2) d).find? k = some p → d.find? k = some p ∨ p ∈ l by
    rcases general l Table.empty h with found | mem
    · cases found
    · exact mem
  intro l
  induction l with
  | nil => exact fun d found => .inl found
  | cons q l ih =>
      intro d found
      rcases ih _ found with before | mem
      · rw [find?_set] at before
        split at before
        · rename_i same
          subst same
          cases before
          exact .inr List.mem_cons_self
        · exact .inl before
      · exact .inr (List.mem_cons_of_mem q mem)

/-- A change of the values changes the entries that are found. -/
theorem find?_ofList_map (l : List (κ × β)) (h : κ × β → κ × β) (same : ∀ p, (h p).1 = p.1)
    (k : κ) : (ofList (l.map h)).find? k = ((ofList l).find? k).map h := by
  suffices general : ∀ (l : List (κ × β)) (d d' : Dict κ β),
      (∀ k, d'.find? k = (d.find? k).map h) →
        ((l.map h).foldl (fun d p => set d p.1 p.2) d').find? k =
          ((l.foldl (fun d p => set d p.1 p.2) d).find? k).map h from
    general l Table.empty Table.empty fun _ => rfl
  intro l
  induction l with
  | nil => intro d d' related; exact related k
  | cons q l ih =>
      intro d d' related
      refine ih _ _ fun k' => ?_
      rw [find?_set, find?_set, same]
      by_cases e : k' = q.1
      · rw [if_pos e, if_pos e]
        exact congrArg some (Prod.ext (same q).symm rfl)
      · rw [if_neg e, if_neg e, related]

end Dict
end Relational
