import Emaild.Fleet.Lifecycle

/-!
How long a body is kept. A purge leaves no body whose message ended longer ago than the
retention, and none comes back; a lone worker removes no other body.
-/
namespace Emaild
open Relational

/-- Nothing of the body is stored. -/
def Message.Bodiless (m : Message) : Prop := m.bodyHtml = none ∧ m.bodyText = none

namespace Fleet
open Transition
variable {D : Deployment} {s t u v : Fleet} {l : Label} {now later : Time} {act : Action}

/-- A row that is marked as purged has no body. -/
def MarkedBodiless (s : Fleet) : Prop :=
  ∀ id m, s.db.messages.find? id = some m → m.bodyPurgedAt.isSome = true → m.Bodiless

/-- Only the purge marks a row. -/
theorem RowChange.mark {m m' : Message} (c : RowChange D s now later act m m') :
    m'.bodyPurgedAt = m.bodyPurgedAt ∨ m' = m.purge now := by
  cases c with
  | recorded => exact .inl (Recording.row_spec _ m).2.purged
  | purged => exact .inr rfl
  | _ => exact .inl rfl

/-- A body that is gone does not come back. -/
theorem RowChange.bodiless {m m' : Message} (c : RowChange D s now later act m m')
    (gone : m.Bodiless) : m'.Bodiless := by
  rcases c.body with ⟨html, text⟩ | ⟨rfl, _⟩
  · exact ⟨html.trans gone.1, text.trans gone.2⟩
  · exact ⟨rfl, rfl⟩

theorem Effect.markedBodiless (e : Effect D s now later act t) (cleared : MarkedBodiless s) :
    MarkedBodiless t := by
  intro id m found marked
  cases e.row id with
  | same eq => exact cleared id m (eq ▸ found) marked
  | changed before after change =>
      obtain rfl := Option.some.inj (after.symm.trans found)
      rcases change.mark with same | purged
      · exact change.bodiless (cleared id _ before (same ▸ marked))
      · exact ⟨by rw [purged]; rfl, by rw [purged]; rfl⟩
  | new _ _ after stored =>
      obtain rfl := Option.some.inj (after.symm.trans found)
      obtain ⟨_, _, _, _, _, _, _, unmarked⟩ := stored.fresh
      simp [unmarked] at marked

theorem markedBodiless_of_run (start : s.Initial) (run : Reaches (step D) Any s t) :
    MarkedBodiless t := by
  refine run.invariant (fun id m found => ?_) fun _ _ _ _ h cleared => ?_
  · rw [start.messages id] at found
    cases found
  · obtain ⟨u, e, rfl⟩ := effect_of_step D h
    exact e.markedBodiless cleared

theorem bodiless_of_run {id : Nat} (run : Reaches (step D) Any s t)
    (gone : ∃ m, s.db.messages.find? id = some m ∧ m.Bodiless) :
    ∃ m, t.db.messages.find? id = some m ∧ m.Bodiless := by
  refine run.invariant (I := fun t => ∃ m, t.db.messages.find? id = some m ∧ m.Bodiless) gone ?_
  rintro t l u - h ⟨m, found, gone⟩
  obtain ⟨u, e, rfl⟩ := effect_of_step D h
  cases e.row id with
  | same eq => exact ⟨m, eq.trans found, gone⟩
  | changed before after change =>
      obtain rfl := Option.some.inj (before.symm.trans found)
      exact ⟨_, after, change.bodiless gone⟩
  | new _ before =>
      rw [before] at found
      cases found

/-- After a purge no message that ended longer ago than the retention has a body, and from
then on it has none in any run, whatever the workers do. -/
theorem purged_for_good {w : String} {id : Nat} {m : Message} {ended : Time} (start : s.Initial)
    (run : Reaches (step D) Any s t) (purge : l.action = .purge w) (h : step D t l = some u)
    (found : u.db.messages.find? id = some m) (completed : m.completedAt = some ended)
    (old : ended + hours D.bodyRetentionHours < t.clock + l.wait)
    (more : Reaches (step D) Any u v) :
    ∃ m', v.db.messages.find? id = some m' ∧ m'.Bodiless := by
  refine bodiless_of_run more ⟨m, found, ?_⟩
  have cleared := markedBodiless_of_run start run
  obtain ⟨_, advanced, rfl⟩ := Option.map_eq_some_iff.mp h
  rw [purge] at advanced
  cases acts_of_advance D advanced with
  | purge idle =>
      dsimp only at found
      rw [find?_purgeExpiredBodies, Option.map_eq_some_iff] at found
      obtain ⟨before, stored, found⟩ := found
      split at found
      · rw [← found]
        exact ⟨rfl, rfl⟩
      · rename_i kept
        subst found
        -- it is old enough, so it is marked already
        refine cleared id before stored ?_
        have cutoff : ended < t.clock + l.wait - hours D.bodyRetentionHours :=
          Int.lt_sub_right_of_add_lt old
        simpa [Message.expired, completed, cutoff, Option.isSome_iff_ne_none] using kept

/-! A lone worker removes a body only when its time is up. -/

/-- The body that a message had is the one it has, unless it ended longer ago than the
retention. -/
def KeepsBody (retentionHours : Nat) (clock : Time) (m m' : Message) : Prop :=
  (m'.bodyHtml = m.bodyHtml ∧ m'.bodyText = m.bodyText) ∨
    ∃ ended, m'.completedAt = some ended ∧ ended + hours retentionHours < clock

theorem KeepsBody.mono {retentionHours : Nat} {clock clock' : Time} {m m' : Message}
    (kept : KeepsBody retentionHours clock m m') (le : clock ≤ clock') :
    KeepsBody retentionHours clock' m m' := by
  rcases kept with same | ⟨ended, completed, old⟩
  · exact .inl same
  · exact .inr ⟨ended, completed, Int.lt_of_lt_of_le old le⟩

theorem RowChange.keepsBody {m m' m'' : Message} (c : RowChange D s now later act m' m'')
    (orderly : Orderly s) (found : s.db.messages.find? m'.id = some m') (le : now ≤ later)
    (le' : s.clock ≤ later) (kept : KeepsBody D.bodyRetentionHours s.clock m m') :
    KeepsBody D.bodyRetentionHours later m m'' := by
  rcases kept with same | ⟨ended, completed, old⟩
  · rcases c.body with kept | ⟨purged, expired⟩
    · exact .inl ⟨kept.1.trans same.1, kept.2.trans same.2⟩
    · simp only [Message.expired, Bool.and_eq_true, Option.any_eq_true_iff_get,
        decide_eq_true_eq] at expired
      obtain ⟨⟨there, old⟩, _⟩ := expired
      exact .inr ⟨_, by rw [purged]; exact (Option.some_get there).symm,
        Int.lt_of_lt_of_le (Int.add_lt_of_lt_sub_right old) le⟩
  · -- what was completed stays as it is, but for the purge
    have terminal : m'.status.Terminal := by
      by_contra going
      rw [((orderly.rows _ m' found).unfinished going).1] at completed
      cases completed
    rw [c.of_terminal orderly.custody found terminal]
    exact .inr ⟨ended, completed, Int.lt_of_lt_of_le old le'⟩

theorem step_keepsBody {id : Nat} {m m' : Message} (h : step D s l = some t)
    (orderly : Orderly s) (found : s.db.messages.find? id = some m')
    (kept : KeepsBody D.bodyRetentionHours s.clock m m') :
    ∃ m'', t.db.messages.find? id = some m'' ∧
      KeepsBody D.bodyRetentionHours t.clock m m'' := by
  have le : s.clock + l.wait ≤ s.clock + l.wait + l.lapse :=
    Int.le_add_of_nonneg_right (Int.natCast_nonneg _)
  have le' : s.clock ≤ s.clock + l.wait + l.lapse :=
    Int.le_trans (Int.le_add_of_nonneg_right (Int.natCast_nonneg _)) le
  obtain ⟨u, e, rfl⟩ := effect_of_step D h
  cases e.row id with
  | same eq => exact ⟨m', eq.trans found, kept.mono le'⟩
  | changed before after change =>
      obtain rfl := Option.some.inj (before.symm.trans found)
      obtain rfl := Table.key_of_find? found
      exact ⟨_, after, change.keepsBody orderly found le le' kept⟩
  | new _ before =>
      rw [before] at found
      cases found

/-- In every run of one worker at a time: as long as the end of a message is not further back
than the retention, its body is the one it has had. -/
theorem body_is_kept {id : Nat} {m : Message} (start : s.Initial)
    (run : Reaches (step D) OneAtATime s t) (found : t.db.messages.find? id = some m)
    (more : Reaches (step D) OneAtATime t u) :
    ∃ m', u.db.messages.find? id = some m' ∧
      KeepsBody D.bodyRetentionHours u.clock m m' := by
  refine (more.invariant (I := fun u => Orderly u ∧ ∃ m', u.db.messages.find? id = some m' ∧
    KeepsBody D.bodyRetentionHours u.clock m m')
    ⟨orderly_of_run start run, m, found, .inl ⟨rfl, rfl⟩⟩ ?_).2
  rintro u l v one h ⟨orderly, m', found', kept⟩
  exact ⟨step_orderly h one orderly, step_keepsBody h orderly found' kept⟩

end Fleet

/-! The letter that was accepted, purged after three days and a half. -/
namespace Sample
open Fleet

def purgeLate : Label := after 300000 (.purge "A")

end Sample

theorem delivered_letter_is_purged :
    ∃ u, Fleet.step Sample.deployment Sample.delivered Sample.purgeLate = some u ∧
      ∀ v, Transition.Reaches (Fleet.step Sample.deployment) Transition.Any u v →
        ∃ m, v.db.messages.find? 1 = some m ∧ m.Bodiless := by
  have purged : (Fleet.step Sample.deployment Sample.delivered Sample.purgeLate).map
      (fun u => (u.db.messages.find? 1).bind Message.completedAt) = some (some 0) := by
    decide +kernel
  have run : Transition.Reaches (Fleet.step Sample.deployment) Transition.Any
      (Sample.fleet Sample.mailbox) Sample.delivered ∧
      Sample.look 1 Sample.delivered = (some .acceptedByProvider, 1) :=
    Transition.reaches_final (Sample.look 1) (by decide +kernel) fun _ _ _ => trivial
  obtain ⟨u, h, completed⟩ := Option.map_eq_some_iff.mp purged
  obtain ⟨m, found, completed⟩ := Option.bind_eq_some_iff.mp completed
  exact ⟨u, h, fun v more => Fleet.purged_for_good (Sample.fleet_initial _) run.1 rfl h found
    completed (by decide +kernel) more⟩

theorem abandoned_letter_keeps_its_body :
    ∃ m, Sample.abandoned.db.messages.find? 1 = some m ∧
      ∀ u, Transition.Reaches (Fleet.step Sample.deployment) Fleet.OneAtATime Sample.abandoned u →
        ∃ m', u.db.messages.find? 1 = some m' ∧ Fleet.KeepsBody 72 u.clock m m' := by
  have rest : Transition.Reaches (Fleet.step Sample.deployment) Fleet.OneAtATime
      (Sample.solo Sample.mailbox) Sample.abandoned ∧
      Sample.look 1 Sample.abandoned = (some .sending, 0) :=
    Transition.reaches_final (Sample.look 1) (by decide +kernel) (by simp [Fleet.OneAtATime,
      Sample.now, Sample.accept, Sample.claimBy])
  have status : (Sample.abandoned.db.messages.find? 1).map Message.status = some .sending :=
    congrArg Prod.fst rest.2
  obtain ⟨m, found, _⟩ := Option.map_eq_some_iff.mp status
  exact ⟨m, found, fun u more => Fleet.body_is_kept (D := Sample.deployment)
    (Sample.fleet_initial _) ((Sample.started (Sample.start_alone _)).trans rest.1) found more⟩

end Emaild
