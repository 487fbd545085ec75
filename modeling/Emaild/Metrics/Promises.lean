import Mathlib.Algebra.BigOperators.Group.List.Basic
import Emaild.Disclosure

/-!
What the metrics promise: that a queue is called healthy when nothing has been waiting for
long, and that the headroom of a sender identity is what the rate gate will still let
through.
-/
namespace Emaild
open Relational

section Queue
variable {db : Database} {now : Time}

/-- The message is not settled a quarter of an hour after it was accepted. -/
def Overdue (now : Time) (m : Message) : Prop :=
  ¬ m.status.Terminal ∧ minutes 15 < now - m.createdAt

instance (now : Time) (m : Message) : Decidable (Overdue now m) :=
  inferInstanceAs (Decidable (_ ∧ _))

/-- An age is compared as it is shown: fifty milliseconds more than the limit are rounded
down to it. -/
theorem queueAgeWarning_lt_age_iff {m : Message} :
    queueAgeWarning < m.age now ↔ 900050000 < now - m.createdAt := by
  have shown : Binary64.roundSigned 1 900050000 1000000 = 9000 := by decide +kernel
  have above : Binary64.roundSigned 1 900050001 1000000 = 9001 := by decide +kernel
  have thousands : 0 < 1000000 := by decide
  unfold Message.age queueAgeWarning
  constructor
  · intro warned
    by_contra young
    have le := Binary64.roundSigned_mono 1 thousands (Int.not_lt.mp young)
    omega
  · intro old
    have least : 900050001 ≤ now - m.createdAt := old
    have le := Binary64.roundSigned_mono 1 thousands least
    omega

theorem healthy_eq_false_iff : (queueHealth db now).healthy = false ↔
    (∃ m ∈ db.messages, m.status.Pending ∧ 900050000 < now - m.createdAt) ∨
      ∃ m ∈ db.messages, m.needsReview = true := by
  have aged : (queueAge db now).any (queueAgeWarning < ·) = true ↔
      ∃ m ∈ db.messages, m.status.Pending ∧ 900050000 < now - m.createdAt := by
    have oldest := @le_queueAge_iff db now (queueAgeWarning + 1)
    simp only [Option.any_eq_true, decide_eq_true_eq, ← queueAgeWarning_lt_age_iff]
    exact oldest
  have flagged : db.messages.count Message.needsReview ≠ 0 ↔
      ∃ m ∈ db.messages, m.needsReview = true := by
    rw [Nat.ne_zero_iff_zero_lt, Table.count, List.countP_pos_iff]
    rfl
  rw [← aged, ← flagged]
  simp only [queueHealth, queueVerdict]
  split
  · rename_i old
    simp [old]
  · rename_i young
    split
    · rename_i review
      simp [review]
    · rename_i quiet
      simp [young, quiet]

/-- A message that is overdue makes the queue unhealthy exactly if another sign is there: one
that waits is older still, or one is flagged. That a worker holds it is no sign. -/
theorem overdue_reported_iff (db : Database) (now : Time) :
    ((∃ m ∈ db.messages, Overdue now m) → (queueHealth db now).healthy = false) ↔
      ((∃ m ∈ db.messages, Overdue now m) →
        (∃ m ∈ db.messages, m.status.Pending ∧ 900050000 < now - m.createdAt) ∨
          ∃ m ∈ db.messages, m.needsReview = true) := by
  rw [healthy_eq_false_iff]

end Queue

/-! The headroom of a sender identity. -/

/-- The project is shown the sender identity, with no more left than its rate gate will let
through. -/
structure Promised (projectId : Nat) (db : Database) (margin : SafetyMargin) (now : Time)
    (mailbox : Mailbox) : Prop where
  listed : ∃ entry ∈ rateHeadroom db margin now (some projectId), entry.sender = mailbox.address
  kept : ∀ entry ∈ rateHeadroom db margin now (some projectId), entry.sender = mailbox.address →
    entry.remaining ≤ (currentBudget db mailbox margin now).remaining

/-- The attempts within the hour that the project has made with the mailbox. -/
def ownAttempts (projectId : Nat) (db : Database) (mailbox : Mailbox) (now : Time) : Nat :=
  db.messages.count fun m => m.counted mailbox.id (now - window) && m.projectId = projectId

section Headroom
variable {projectId : Nat} {db : Database} {margin : SafetyMargin} {now : Time} {mailbox : Mailbox}
  (unique : ∀ a ∈ db.mailboxes, ∀ b ∈ db.mailboxes, a.address = b.address → a = b)
  (mem : mailbox ∈ db.mailboxes)
include unique mem

theorem senderOf_eq_iff {other : Mailbox} (there : other ∈ db.mailboxes) :
    senderOf other = senderOf mailbox ↔ other = mailbox :=
  ⟨fun same => unique other there mailbox mem (congrArg Prod.fst same), congrArg senderOf⟩

theorem ownUse_eq_ownAttempts : ownUse projectId db db.messages (now - window) (senderOf mailbox) =
    ownAttempts projectId db mailbox now := by
  have single : db.mailboxes.rows.filter (fun other => senderOf other = senderOf mailbox) =
      [mailbox] := by
    refine Table.filter_eq_singleton.mpr ⟨⟨mem, decide_eq_true rfl⟩, fun other there same => ?_⟩
    exact (senderOf_eq_iff unique mem there).mp (of_decide_eq_true same)
  rw [ownUse, List.sum_map_ite, single]
  simp [ownAttempts, Table.count]

/-- The entries of a mailbox are those of its address, and say how much of the ceiling the
project has left unused. -/
theorem mem_rateHeadroom_iff {entry : Headroom} :
    entry ∈ rateHeadroom db margin now (some projectId) ∧ entry.sender = mailbox.address ↔
      Listed projectId db db.messages (now - window) (senderOf mailbox) ∧
        entry = headroomOf margin (senderOf mailbox) (ownAttempts projectId db mailbox now) := by
  have rows := @rateHeadroom_eq projectId db db.messages now margin
  have senders := @mem_senders projectId db db.messages (now - window)
  change rateHeadroom db margin now (some projectId) = _ at rows
  rw [rows, List.mem_map, ← ownUse_eq_ownAttempts unique mem]
  constructor
  · rintro ⟨⟨sender, grouped, rfl⟩, named⟩
    have listed := senders.mp (List.mem_dedup.mp grouped)
    obtain ⟨other, there, rfl⟩ : ∃ other ∈ db.mailboxes, senderOf other = sender := by
      rcases listed with ⟨other, there, same, _⟩ | ⟨other, there, same, _⟩
      · exact ⟨other, there, same⟩
      · exact ⟨other, there, same⟩
    obtain rfl := unique other there mailbox mem named
    exact ⟨listed, rfl⟩
  · rintro ⟨listed, rfl⟩
    exact ⟨⟨_, List.mem_dedup.mpr (senders.mpr listed), rfl⟩, rfl⟩

/-- A mailbox is listed if the project has used it or nobody has. -/
theorem listed_iff_used : Listed projectId db db.messages (now - window) (senderOf mailbox) ↔
    0 < ownAttempts projectId db mailbox now ∨
      ∀ m ∈ db.messages, m.counted mailbox.id (now - window) = false := by
  have used : 0 < ownAttempts projectId db mailbox now ↔
      ∃ m ∈ db.messages, m.projectId = projectId ∧ m.counted mailbox.id (now - window) = true := by
    rw [ownAttempts, Table.count, List.countP_pos_iff]
    simp only [Bool.and_eq_true, decide_eq_true_eq, and_comm, Table.mem_def]
  rw [used]
  constructor
  · rintro (⟨other, there, same, attempted⟩ | ⟨other, there, same, idle⟩)
    · obtain rfl := (senderOf_eq_iff unique mem there).mp same
      exact .inl attempted
    · obtain rfl := (senderOf_eq_iff unique mem there).mp same
      exact .inr idle
  · rintro (attempted | idle)
    · exact .inl ⟨mailbox, mem, rfl, attempted⟩
    · exact .inr ⟨mailbox, mem, rfl, idle⟩

omit unique mem in
/-- The gate counts the attempts of the project and those of the others. -/
theorem used_eq_ownAttempts_add : (currentBudget db mailbox margin now).used =
    ownAttempts projectId db mailbox now +
      db.messages.count fun m =>
        m.counted mailbox.id (now - window) && m.projectId ≠ projectId := by
  simp only [currentBudget, ownAttempts, Table.count]
  rw [List.countP_eq_countP_filter_add db.messages.rows _ fun m => decide (m.projectId = projectId),
    List.countP_filter, List.countP_filter]
  simp only [decide_not]

/-- A sender identity is promised what its rate gate will let through exactly if no other
project has made an attempt with it within the hour, or the project itself has used it up. -/
theorem promised_iff : Promised projectId db margin now mailbox ↔
    (∀ m ∈ db.messages, m.counted mailbox.id (now - window) = true → m.projectId = projectId) ∨
      ceiling margin mailbox ≤ ownAttempts projectId db mailbox now := by
  have entries {entry : Headroom} :=
    @mem_rateHeadroom_iff projectId db margin now mailbox unique mem entry
  have listed := @listed_iff_used projectId db now mailbox unique mem
  have used := @used_eq_ownAttempts_add projectId db margin now mailbox
  have positive : 0 < ceiling margin mailbox := Nat.lt_of_lt_of_le Nat.one_pos (Nat.le_max_left 1 _)
  have others : (db.messages.count fun m => m.counted mailbox.id (now - window) &&
      m.projectId ≠ projectId) = 0 ↔
        ∀ m ∈ db.messages, m.counted mailbox.id (now - window) = true →
          m.projectId = projectId := by
    rw [Table.count, List.countP_eq_zero]
    simp [Table.mem_def]
  have remaining : (headroomOf margin (senderOf mailbox)
      (ownAttempts projectId db mailbox now)).remaining =
        ceiling margin mailbox - ownAttempts projectId db mailbox now := rfl
  rw [← others]
  constructor
  · intro promised
    obtain ⟨entry, there, named⟩ := promised.listed
    have le := promised.kept entry there named
    rw [(entries.mp ⟨there, named⟩).2, remaining, Budget.remaining, used] at le
    change _ ≤ ceiling margin mailbox - _ at le
    omega
  · intro fair
    have shown : Listed projectId db db.messages (now - window) (senderOf mailbox) := by
      rw [listed]
      rcases Nat.eq_zero_or_pos (ownAttempts projectId db mailbox now) with unused | attempted
      · have idle := fair.resolve_right (by omega)
        rw [unused, idle, currentBudget, Table.count, Nat.add_zero, List.countP_eq_zero] at used
        exact .inr fun m there => Bool.eq_false_iff.mpr (used m there)
      · exact .inl attempted
    refine ⟨⟨_, entries.mpr ⟨shown, rfl⟩⟩, fun entry there named => ?_⟩
    rw [(entries.mp ⟨there, named⟩).2, remaining, Budget.remaining, used]
    change _ ≤ ceiling margin mailbox - _
    omega

end Headroom

namespace Sample

/-- A worker has taken the letter and died. -/
def heldLetter : Message :=
  { blogLetter with status := .sending, claimedBy := some "w1", claimedAt := some 0 }

/-- A letter that the project itself has sent. -/
def ownSentLetter : Message := { sentLetter with projectId := 1 }

theorem shared_mailboxes {a : Mailbox} (mem : a ∈ shared.mailboxes) : a = mailbox :=
  List.mem_singleton.mp mem

theorem mem_blogLetters (m : Message) : m ∈ blogLetters m :=
  List.mem_singleton_self m

end Sample

open Sample

/-- A letter that a dead worker has held for two hours goes unnoticed. -/
theorem held_letter_is_healthy :
    (∃ m ∈ (shared.withMessages (blogLetters heldLetter)).messages, Overdue (hours 2) m) ∧
      (queueHealth (shared.withMessages (blogLetters heldLetter)) (hours 2)).healthy = true :=
  ⟨⟨heldLetter, mem_blogLetters _, by decide⟩, by decide +kernel⟩

/-- Attempts of the project itself are counted alike by the metrics and by the gate. -/
theorem own_attempts_are_promised :
    Promised 1 (shared.withMessages (blogLetters ownSentLetter)) nineTenths
      (minutes 1) mailbox := by
  refine (promised_iff (fun a ha b hb _ => ?_) ?_).mpr (.inl fun m mem _ => ?_)
  · rw [shared_mailboxes ha, shared_mailboxes hb]
  · exact List.mem_singleton_self mailbox
  · obtain rfl : m = ownSentLetter := List.mem_singleton.mp mem
    rfl

/-- A sender identity that another project alone has used is not listed for the project whose
key is scoped to it. -/
theorem used_elsewhere_is_not_listed :
    apiKey ∈ shared.apiKeys ∧ apiKey.projectId = 1 ∧
      ⟨apiKey.id, mailbox.id⟩ ∈ shared.apiKeyScopes ∧
    ¬ Promised 1 (shared.withMessages (blogLetters sentLetter)) nineTenths (minutes 1) mailbox := by
  refine ⟨List.mem_singleton_self _, rfl, List.mem_singleton_self _, fun promised => ?_⟩
  obtain ⟨entry, there, _⟩ := promised.listed
  have unlisted : rateHeadroom (shared.withMessages (blogLetters sentLetter)) nineTenths (minutes 1)
      (some 1) = [] := by decide +kernel
  rw [unlisted] at there
  cases there

end Emaild
