import Mathlib.Algebra.Order.Group.Int
import Mathlib.Order.Bounds.Basic
import Emaild.Recording

/-!
When the gate of a sender identity opens again. Without new attempts the rows that count
only become fewer, the oldest first.
-/
namespace Emaild
open Relational SlidingWindow

/-- The times of a mailbox's last attempts, one for each message that has been attempted. -/
def attemptTimes (db : Database) (mailboxId : Nat) : List Time :=
  (db.messages.rows.filter fun m => m.mailboxId = mailboxId).filterMap Message.lastAttemptAt

theorem count_counted (db : Database) (mailboxId : Nat) (cutoff : Time) :
    db.messages.count (Message.counted mailboxId cutoff) =
      since cutoff (attemptTimes db mailboxId) := by
  unfold Table.count since attemptTimes
  rw [List.countP_filterMap, List.countP_filter]
  refine List.countP_congr fun m _ => ?_
  unfold Message.counted
  cases m.lastAttemptAt <;> simp [and_comm]

/-- The attempts that count at a time. -/
def countedTimes (db : Database) (mailboxId : Nat) (now : Time) : List Time :=
  (attemptTimes db mailboxId).filter fun t => now - window ≤ t

theorem filterMap_counted (db : Database) (mailboxId : Nat) (now : Time) :
    (db.messages.rows.filter (Message.counted mailboxId (now - window))).filterMap
      Message.lastAttemptAt = countedTimes db mailboxId now := by
  unfold countedTimes attemptTimes
  rw [List.filter_filterMap, List.filterMap_filter, List.filterMap_filter]
  refine List.filterMap_congr fun m _ => ?_
  unfold Message.counted
  cases m.lastAttemptAt with
  | none => simp
  | some last =>
      by_cases same : m.mailboxId = mailboxId
      · simp [same, Option.filter]
      · simp [same]

/-- The gate opens when the oldest attempt that counts is over. -/
theorem nextWindowOpening_of_least {db : Database} {mailboxId : Nat} {now oldest : Time}
    (least : IsLeast {t | t ∈ countedTimes db mailboxId now} oldest) :
    nextWindowOpening db mailboxId now = oldest + window + seconds 1 := by
  unfold nextWindowOpening
  dsimp only
  rw [filterMap_counted, List.min?_eq_some_iff.mpr ⟨least.1, fun t mem => least.2 mem⟩]

/-- The budget of a mailbox, were its ceiling this one. -/
def budgetUnder (ceiling : Nat) (db : Database) (mailbox : Mailbox) (margin : SafetyMargin)
    (now : Time) : Budget := { currentBudget db mailbox margin now with ceiling := ceiling }

section Opening
variable {db : Database} {mailbox : Mailbox} {margin : SafetyMargin} {limit : Nat} {now : Time}

variable (limit db mailbox margin now) in
theorem used_eq_since : (budgetUnder limit db mailbox margin now).used =
    since (now - window) (attemptTimes db mailbox.id) := count_counted ..

theorem exhausted_iff_since : (budgetUnder limit db mailbox margin now).exhausted = true ↔
    limit ≤ since (now - window) (attemptTimes db mailbox.id) := by
  rw [Budget.exhausted_iff, used_eq_since]
  rfl

/-- While the budget is spent there is an oldest attempt that counts. -/
theorem exists_oldest (positive : 0 < limit)
    (spent : (budgetUnder limit db mailbox margin now).exhausted = true) :
    ∃ oldest, IsLeast {t | t ∈ countedTimes db mailbox.id now} oldest := by
  have nonempty := positive.trans_le (exhausted_iff_since.mp spent)
  have nonempty : 0 < (countedTimes db mailbox.id now).length := by
    rwa [countedTimes, ← List.countP_eq_length_filter]
  obtain ⟨oldest, found⟩ := Option.isSome_iff_exists.mp
    (List.isSome_min?_of_ne_nil (List.length_pos_iff.mp nonempty))
  have least := List.min?_eq_some_iff.mp found
  exact ⟨oldest, least.1, fun t mem => least.2 t mem⟩

/-- What `next_window_opening` promises of a spent budget: the gate opens within an hour and
a second, it is shut until the oldest attempt that counts is an hour old, and if no more
attempts counted than there is room for it does open. -/
theorem nextWindowOpening_law (db : Database) (mailbox : Mailbox) (margin : SafetyMargin)
    {limit : Nat} {now : Time} (positive : 0 < limit)
    (past : ∀ last ∈ attemptTimes db mailbox.id, last ≤ now)
    (spent : (budgetUnder limit db mailbox margin now).exhausted = true) :
    now < nextWindowOpening db mailbox.id now ∧
    nextWindowOpening db mailbox.id now ≤ now + window + seconds 1 ∧
    (∃ oldest, IsLeast {t | t ∈ countedTimes db mailbox.id now} oldest ∧
      ∀ later, now ≤ later → later ≤ oldest + window →
        (budgetUnder limit db mailbox margin later).exhausted = true) ∧
    ((budgetUnder limit db mailbox margin now).used = limit →
      (budgetUnder limit db mailbox margin
        (nextWindowOpening db mailbox.id now)).exhausted = false) := by
  obtain ⟨oldest, least⟩ := exists_oldest positive spent
  obtain ⟨mem, counted⟩ := List.mem_filter.mp least.1
  have counted : now - window ≤ oldest := of_decide_eq_true counted
  have early := past oldest mem
  rw [nextWindowOpening_of_least least]
  have ahead : oldest + window < oldest + window + seconds 1 := lt_add_of_pos_right _ (by decide)
  refine ⟨(sub_le_iff_le_add.mp counted).trans_lt ahead, by gcongr, ⟨oldest, least, ?_⟩, ?_⟩
  · intro later forward inside
    have steady := since_eq_of_oldest
      (fun t mem counted => least.2 (List.mem_filter.mpr ⟨mem, decide_eq_true counted⟩))
      forward inside
    rw [exhausted_iff_since] at spent ⊢
    rwa [steady]
  · intro full
    rw [used_eq_since] at full
    have fewer := since_lt_of_oldest mem counted ahead
    rw [← Bool.not_eq_true, exhausted_iff_since]
    omega

end Opening

/-! One message whose attempt began half an hour ago, of an identity that may send one. -/
namespace Sample

def tried : Message := { inFlight with lastAttemptAt := some 0, attempts := 1 }

def storeAttempted : Database :=
  { store mailbox with messages := Table.empty.insert tried rfl }

def margin : SafetyMargin :=
  { Binary64.nineTenths with leavesHeadroom := nineTenths_leavesHeadroom }

end Sample

/-- Its gate is shut for another half hour, and open a second after that. -/
theorem gate_opens_once_attempt_is_over :
    nextWindowOpening Sample.storeAttempted Sample.mailbox.id (minutes 30) =
      hours 1 + seconds 1 ∧
    (∃ oldest, IsLeast {t | t ∈ countedTimes Sample.storeAttempted Sample.mailbox.id (minutes 30)}
        oldest ∧ ∀ later, minutes 30 ≤ later → later ≤ oldest + window →
          (budgetUnder 1 Sample.storeAttempted Sample.mailbox Sample.margin later).exhausted =
            true) ∧
    (budgetUnder 1 Sample.storeAttempted Sample.mailbox Sample.margin
      (nextWindowOpening Sample.storeAttempted Sample.mailbox.id (minutes 30))).exhausted =
        false := by
  obtain ⟨_, _, shut, opens⟩ := nextWindowOpening_law Sample.storeAttempted Sample.mailbox
    Sample.margin (by decide : 0 < 1) (by decide : ∀ last ∈ attemptTimes _ _, last ≤ minutes 30)
    (by decide)
  exact ⟨by decide, shut, opens (by decide)⟩

end Emaild
