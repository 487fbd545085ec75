import Mathlib.Logic.Function.Basic
import Emaild.Relational.Versions
import Emaild.Transition.Reaches

/-!
The identity of an installation. Every process that starts looks for the row, inserts
one of its own unless there is one, and looks again. Its transaction may be rolled
back after any of these statements.
-/
namespace Emaild.Bootstrap
open Relational Transition

structure Installation where
  id : Nat
  installationId : String
  installedVersion : String
  deriving DecidableEq

/-- `ck_installation_single_row` -/
def Installation.SingleRow (row : Installation) : Prop := row.id = 1

def installationIdPrefix : String := "inst_"

/-- `new_installation_id`, from the random text it draws. -/
def newInstallationId (random : String) : String := installationIdPrefix ++ random

/-- Where a process is in `ensure_installation`. -/
inductive Ensuring
  | idle
  | selecting
  | inserting (candidate : String)
  | reselecting (candidate : String)
  | returned (installationId : String)
  /-- `scalar_one` or `scalar_one_or_none` has raised. -/
  | raised
  deriving DecidableEq

structure Startup (P : Type) where
  installations : Versions P Installation
  processes : P → Ensuring
  /-- What the calls have returned whose transaction was committed. -/
  settled : List String

inductive StartupAction
  | start
  | select (random : String)
  | insert
  | reselect
  | commit
  | abort

namespace Startup
variable {P : Type} [DecidableEq P]

def moveTo (s : Startup P) (p : P) (phase : Ensuring) : Startup P :=
  { s with processes := Function.update s.processes p phase }

/-- `scalar_one_or_none`, and how the function goes on when there is no row. -/
def afterSelect (absent : Ensuring) : List Installation → Ensuring
  | [] => absent
  | [row] => .returned row.installationId
  | _ :: _ :: _ => .raised

/-- What a statement of a process does, or the end of its transaction. -/
def step (version : String) (s : Startup P) : P × StartupAction → Option (Startup P)
  | (p, .start) =>
      match s.processes p with
      | .idle => some (s.moveTo p .selecting)
      | _ => none
  | (p, .select random) =>
      match s.processes p with
      | .selecting => some (s.moveTo p
          (afterSelect (.inserting (newInstallationId random)) (s.installations.visible p)))
      | _ => none
  | (p, .insert) =>
      match s.processes p with
      | .inserting candidate =>
          (s.installations.insertOrIgnore Installation.id p ⟨1, candidate, version⟩).map
            fun installations => { s with installations := installations }.moveTo p
              (.reselecting candidate)
      | _ => none
  | (p, .reselect) =>
      match s.processes p with
      | .reselecting _ => some (s.moveTo p (afterSelect .raised (s.installations.visible p)))
      | _ => none
  | (p, .commit) =>
      match s.processes p with
      | .returned installationId => some ({ s with
          installations := s.installations.commit p
          settled := s.settled ++ [installationId] }.moveTo p .idle)
      | _ => none
  | (p, .abort) => some ({ s with installations := s.installations.abort p }.moveTo p .idle)

end Startup

/-- What a process that has got so far relies on in the rows it reads. -/
def Ensuring.Relies (rows : List Installation) : Ensuring → Prop
  | idle | selecting | inserting _ => True
  | reselecting _ => ∃ row, row ∈ rows
  | returned installationId => ∃ row ∈ rows, row.installationId = installationId
  | raised => False

theorem Ensuring.Relies.mono {rows rows' : List Installation} {phase : Ensuring}
    (h : phase.Relies rows) (more : ∀ row ∈ rows, row ∈ rows') : phase.Relies rows' := by
  cases phase with
  | idle | selecting | inserting => trivial
  | reselecting =>
      obtain ⟨row, mem⟩ := h
      exact ⟨row, more row mem⟩
  | returned =>
      obtain ⟨row, mem, same⟩ := h
      exact ⟨row, more row mem, same⟩
  | raised => exact h

namespace Startup
variable {P : Type} [DecidableEq P]

/-- One row at most, which every call reads that has got past its insert and every
committed call has returned. -/
structure Sound (s : Startup P) : Prop where
  unique : Versions.Unique Installation.id s.installations
  single : ∀ v ∈ s.installations, v.row.SingleRow
  phases : ∀ p, (s.processes p).Relies (s.installations.visible p)
  settled : ∀ installationId ∈ s.settled,
    ∃ row ∈ s.installations.committed, row.installationId = installationId

section Step
variable {version : String} {s t : Startup P} {p q : P} {act : StartupAction}

/-- Keys that are all the same and all different are those of one row. -/
theorem Sound.length_le_one (h : Sound s) : s.installations.length ≤ 1 := by
  have keys : s.installations.map (fun v => v.row.id) =
      List.replicate s.installations.length 1 :=
    List.eq_replicate_iff.mpr ⟨by simp, by simpa [Installation.SingleRow] using h.single⟩
  have unique := h.unique
  rw [Versions.Unique, keys, List.nodup_replicate] at unique
  exact unique

theorem Sound.visible_length (h : Sound s) (p : P) : (s.installations.visible p).length ≤ 1 := by
  rw [Versions.visible, List.length_map]
  exact Nat.le_trans (List.length_filter_le _ _) h.length_le_one

theorem Sound.committed_length (h : Sound s) : s.installations.committed.length ≤ 1 := by
  rw [Versions.committed, List.length_map]
  exact Nat.le_trans (List.length_filter_le _ _) h.length_le_one

/-- A process goes on, with the rows that the others read still in place. -/
theorem Sound.moveTo (h : Sound s) {installations : Versions P Installation} {phase : Ensuring}
    {settled : List String} (unique : Versions.Unique Installation.id installations)
    (single : ∀ v ∈ installations, v.row.SingleRow)
    (others : ∀ q, q ≠ p → ∀ row ∈ s.installations.visible q, row ∈ installations.visible q)
    (relies : phase.Relies (installations.visible p))
    (settles : ∀ installationId ∈ settled,
      ∃ row ∈ installations.committed, row.installationId = installationId) :
    Sound (Startup.moveTo ⟨installations, s.processes, settled⟩ p phase) := by
  refine ⟨unique, single, fun q => ?_, settles⟩
  by_cases same : q = p
  · subst same
    simpa [Startup.moveTo] using relies
  · simpa [Startup.moveTo, same] using (h.phases q).mono (others q same)

/-- The same where the process has only read. -/
theorem Sound.read (h : Sound s) {phase : Ensuring}
    (relies : phase.Relies (s.installations.visible p)) : Sound (s.moveTo p phase) :=
  h.moveTo h.unique h.single (fun _ _ _ mem => mem) relies h.settled

/-- A read of at most one row never raises for too many. -/
theorem afterSelect_relies {absent : Ensuring} {rows : List Installation} (few : rows.length ≤ 1)
    (unlisted : rows = [] → absent.Relies rows) : (afterSelect absent rows).Relies rows := by
  match rows, few with
  | [], _ => exact unlisted rfl
  | [row], _ => exact ⟨row, List.mem_singleton_self row, rfl⟩

theorem step_sound (h : step version s (p, act) = some t) (sound : Sound s) : Sound t := by
  have relies := sound.phases p
  cases act with
  | start =>
      simp only [step] at h
      split at h <;> cases h
      exact sound.read trivial
  | select random =>
      simp only [step] at h
      split at h <;> cases h
      exact sound.read (afterSelect_relies (sound.visible_length p) fun _ => trivial)
  | insert =>
      simp only [step] at h
      split at h
      · rename_i candidate phase
        obtain ⟨installations, inserted, rfl⟩ := Option.map_eq_some_iff.mp h
        obtain ⟨row, sees, _⟩ := Versions.visible_of_insertOrIgnore inserted
        refine sound.moveTo (sound.unique.insertOrIgnore inserted) ?_
          (fun q _ row mem => Versions.visible_insertOrIgnore inserted mem) ⟨row, sees⟩
          fun id mem => ?_
        · rcases Versions.insertOrIgnore_cases inserted with ⟨rfl, _⟩ | ⟨rfl, _⟩
          · exact sound.single
          · intro v mem
            rcases List.mem_append.mp mem with old | new
            · exact sound.single v old
            · rw [List.mem_singleton.mp new]
              rfl
        · obtain ⟨row, there, same⟩ := sound.settled id mem
          exact ⟨row, Versions.committed_insertOrIgnore inserted there, same⟩
      · cases h
  | reselect =>
      simp only [step] at h
      split at h <;> cases h
      rename_i candidate phase
      rw [phase] at relies
      obtain ⟨row, sees⟩ := relies
      refine sound.read (afterSelect_relies (sound.visible_length p) fun unlisted => ?_)
      rw [unlisted] at sees
      cases sees
  | commit =>
      simp only [step] at h
      split at h <;> cases h
      rename_i installationId phase
      rw [phase] at relies
      obtain ⟨row, sees, same⟩ := relies
      refine sound.moveTo (sound.unique.commit p) ?_
        (fun q _ row mem => Versions.visible_commit mem) trivial fun id mem => ?_
      · intro v mem
        obtain ⟨w, old, rfl⟩ := List.mem_map.mp mem
        simpa using sound.single w old
      · rcases List.mem_append.mp mem with old | new
        · obtain ⟨row, there, same⟩ := sound.settled id old
          exact ⟨row, Versions.committed_of_commit there, same⟩
        · rw [List.mem_singleton.mp new]
          exact ⟨row, Versions.committed_commit sees, same⟩
  | abort =>
      cases h
      refine sound.moveTo (sound.unique.abort p) ?_
        (fun q other row mem => Versions.visible_abort other mem) trivial fun id mem => ?_
      · exact fun v mem => sound.single v (List.mem_of_mem_filter mem)
      · obtain ⟨row, there, same⟩ := sound.settled id mem
        exact ⟨row, Versions.committed_abort there, same⟩

/-- No step takes a committed row away. -/
theorem step_committed (h : step version s (p, act) = some t) {row : Installation}
    (there : row ∈ s.installations.committed) : row ∈ t.installations.committed := by
  cases act with
  | start | select | reselect =>
      simp only [step] at h
      split at h <;> cases h
      exact there
  | insert =>
      simp only [step] at h
      split at h
      · obtain ⟨installations, inserted, rfl⟩ := Option.map_eq_some_iff.mp h
        exact Versions.committed_insertOrIgnore inserted there
      · cases h
  | commit =>
      simp only [step] at h
      split at h <;> cases h
      exact Versions.committed_of_commit there
  | abort =>
      cases h
      exact Versions.committed_abort there

end Step

/-- Nothing has started, and the table is empty or holds one row, which came with a
backup. -/
structure Initial (s : Startup P) : Prop where
  rows : s.installations = [] ∨ ∃ row : Installation, row.SingleRow ∧
    s.installations = [⟨row, none⟩]
  idle : ∀ p, s.processes p = .idle
  settled : s.settled = []

theorem Initial.sound {s : Startup P} (h : s.Initial) : Sound s where
  unique := by rcases h.rows with rows | ⟨row, _, rows⟩ <;> simp [Versions.Unique, rows]
  single := by
    rcases h.rows with rows | ⟨row, single, rows⟩
    · simp [rows]
    · simpa [rows] using single
  phases p := by rw [h.idle p]; trivial
  settled := by simp [h.settled]

/-- In every run, with any number of processes: the table never holds two rows, a
committed row stays, every committed call has returned the identity in that row, and
no call fails for what it reads. -/
theorem one_installation {version : String} {start s t : Startup P} (initial : start.Initial)
    (before : Reaches (step version) Any start s) (after : Reaches (step version) Any s t) :
    (t.installations.committed).length ≤ 1 ∧
      (∀ row ∈ s.installations.committed, t.installations.committed = [row]) ∧
      (∀ installationId ∈ t.settled, ∃ row, t.installations.committed = [row] ∧
        row.installationId = installationId) ∧
      ∀ p, t.processes p ≠ .raised := by
  have sound : Sound t := (before.trans after).invariant initial.sound
    fun _ _ _ _ h kept => step_sound h kept
  have only : ∀ row ∈ t.installations.committed, t.installations.committed = [row] := by
    intro row there
    obtain ⟨other, same⟩ := List.length_eq_one_iff.mp
      (Nat.le_antisymm sound.committed_length (List.length_pos_of_mem there))
    rw [same, List.mem_singleton] at there
    rw [same, there]
  refine ⟨sound.committed_length, fun row there => only row ?_, fun id mem => ?_,
    fun p raised => ?_⟩
  · exact after.invariant there fun _ _ _ _ h kept => step_committed h kept
  · obtain ⟨row, there, same⟩ := sound.settled id mem
    exact ⟨row, only row there, same⟩
  · have := sound.phases p
    rw [raised] at this
    exact this

end Startup

/-! The worker's insert is rolled back while the API waits for it, and the worker starts
again. -/
namespace Sample

def fresh : Startup String := ⟨[], fun _ => .idle, []⟩

def race : List (String × StartupAction) := [
  ("api", .start), ("worker", .start), ("api", .select "a"), ("worker", .select "b"),
  ("worker", .insert), ("worker", .abort), ("api", .insert), ("api", .reselect),
  ("worker", .start), ("worker", .select "c"), ("api", .commit), ("worker", .insert),
  ("worker", .reselect), ("worker", .commit)]

def settled : Startup String := final (Startup.step "1.0") fresh race

theorem race_settles : (execute (Startup.step "1.0") fresh race).map
    (fun s => (s.settled, s.installations.committed)) =
      some (["inst_a", "inst_a"], [⟨1, "inst_a", "1.0"⟩]) := by decide

end Sample

theorem both_settle_on_one : "inst_a" ∈ Sample.settled.settled ∧
    ∃ row, Sample.settled.installations.committed = [row] ∧ row.installationId = "inst_a" := by
  obtain ⟨run, ends⟩ := reaches_final (fun s : Startup String =>
    (s.settled, s.installations.committed)) Sample.race_settles fun _ _ _ => trivial
  have settled : "inst_a" ∈ Sample.settled.settled := by
    rw [show Sample.settled.settled = ["inst_a", "inst_a"] from congrArg Prod.fst ends]
    exact List.mem_cons_self ..
  exact ⟨settled, (Startup.one_installation ⟨.inl rfl, fun _ => rfl, rfl⟩ .refl run).2.2.1
    "inst_a" settled⟩

end Emaild.Bootstrap
