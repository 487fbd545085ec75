import Emaild.Models
import Emaild.Numeric.SlidingWindow

/-!
The rate gate of a sender identity. It counts message rows by the time of their
last attempt and compares the count with a ceiling below the provider's.
-/
namespace Emaild
open Relational

/-- `WINDOW` -/
def window : Time := hours 1

structure Budget where
  mailboxId : Nat
  used : Nat
  ceiling : Nat
  providerCeiling : Nat
  deriving DecidableEq

namespace Budget

def remaining (b : Budget) : Nat := b.ceiling - b.used

def exhausted (b : Budget) : Bool := b.remaining ≤ 0

theorem exhausted_iff (b : Budget) : b.exhausted = true ↔ b.ceiling ≤ b.used := by
  simp [exhausted, remaining, Nat.sub_eq_zero_iff_le]

end Budget

/-- The rows the gate counts: attempts of this mailbox at or after the cutoff. -/
def Message.counted (mailboxId : Nat) (cutoff : Time) (m : Message) : Bool :=
  m.mailboxId = mailboxId && m.lastAttemptAt.any fun t => cutoff ≤ t

theorem Message.counted_iff {mailboxId : Nat} {cutoff : Time} {m : Message} :
    m.counted mailboxId cutoff = true ↔
      m.mailboxId = mailboxId ∧ ∃ t, m.lastAttemptAt = some t ∧ cutoff ≤ t := by
  simp only [counted, Bool.and_eq_true, decide_eq_true_eq, Option.any_eq_true_iff_get]
  constructor
  · rintro ⟨h, h', hc⟩
    exact ⟨h, _, (Option.some_get h').symm, by simpa using hc⟩
  · rintro ⟨h, t, ht, hc⟩
    exact ⟨h, by simp [ht], by simpa [ht] using hc⟩

/-- `max(1, int(hourly_limit * safety_margin))` -/
def ceiling (margin : SafetyMargin) (mailbox : Mailbox) : Nat :=
  max 1 (Binary64.truncMul mailbox.hourlyLimit margin.toPositive)

/-- `current_budget` -/
def currentBudget (db : Database) (mailbox : Mailbox) (margin : SafetyMargin) (now : Time) :
    Budget where
  mailboxId := mailbox.id
  used := db.messages.count (Message.counted mailbox.id (now - window))
  ceiling := ceiling margin mailbox
  providerCeiling := mailbox.hourlyLimit

theorem currentBudget_open_iff {db : Database} {mailbox : Mailbox} {margin : SafetyMargin}
    {now : Time} : (currentBudget db mailbox margin now).exhausted = false ↔
      (currentBudget db mailbox margin now).used < ceiling margin mailbox := by
  rw [Bool.eq_false_iff, Ne, Budget.exhausted_iff, Nat.not_le]
  rfl

/-- `next_window_opening`: when the oldest counted attempt ages out, plus a
second for clock skew. -/
def nextWindowOpening (db : Database) (mailboxId : Nat) (now : Time) : Time :=
  let attempts := (db.messages.rows.filter (Message.counted mailboxId (now - window))).filterMap
    Message.lastAttemptAt
  match attempts.min? with
  | none => now
  | some oldest => oldest + window + seconds 1

end Emaild
