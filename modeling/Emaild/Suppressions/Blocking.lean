import Mathlib.Data.Set.Insert
import Emaild.Acceptance

/-!
What the suppression list is for. A history of additions and removals means a set of
addresses, in normal form whatever they were spelled like; no message is stored for one of
them.
-/
namespace Emaild
open Relational Text

/-- `is_suppressed` -/
def isSuppressed (rt : Runtime) (db : Database) (address : String) : Except Raised Bool := do
  return decide (db.suppressed (← normaliseAddress rt address))

theorem isSuppressed_eq_ok {rt : Runtime} {db : Database} {address : String} {listed : Bool} :
    isSuppressed rt db address = .ok listed ↔
      ∃ n, normaliseAddress rt address = .ok n ∧ decide (db.suppressed n) = listed := by
  unfold isSuppressed
  cases normaliseAddress rt address with
  | error => simp [bind, Except.bind]
  | ok n => simp [bind, Except.bind, pure, Except.pure]

/-- A change of the list, in a transaction of its own. Others may be adding addresses too. -/
inductive ListChange
  | add (address : String) (source : SuppressionSource) (reason : Option String)
      (projectId : Option Nat) (race : Race) (now : Time)
  | remove (address : String)

namespace ListChange
variable (rt : Runtime)

def apply (db : Database) : ListChange → Database
  | add address source reason projectId race now =>
      (sessionScope (addSuppression rt race now address source reason projectId) db).2
  | remove address =>
      match removeSuppression rt db address with
      | .ok (_, db) => db
      | .error _ => db

/-- What a change means for the addresses that are blocked. An address that no column takes
is not added. -/
def meaning (blocked : Set String) : ListChange → Set String
  | add address _ reason .. =>
      match normaliseAddress rt address with
      | .ok n =>
        if rt.columnTakes 320 n && reason.all rt.storesText then insert n blocked else blocked
      | .error _ => blocked
  | remove address =>
      match normaliseAddress rt address with
      | .ok n => blocked \ {n}
      | .error _ => blocked

end ListChange

/-- The store after a history of changes. -/
def afterChanges (rt : Runtime) (db : Database) (history : List ListChange) : Database :=
  history.foldl (ListChange.apply rt) db

/-- The addresses that a history leaves blocked. -/
def blockedBy (rt : Runtime) (before : Set String) (history : List ListChange) : Set String :=
  history.foldl (ListChange.meaning rt) before

theorem suppressed_iff {db : Database} {a : String} :
    db.suppressed a ↔ ∃ row ∈ db.suppressions, row.address = a := by
  constructor
  · intro there
    obtain ⟨row, found⟩ := Option.ne_none_iff_exists'.mp there
    exact ⟨row, Table.mem_of_find? found, Table.key_of_find? found⟩
  · rintro ⟨row, mem, rfl⟩
    rw [Database.suppressed, Table.find?_of_mem mem]
    exact Option.some_ne_none row

section Change
variable {rt : Runtime} {db : Database}

/-- A removal drops one address. -/
theorem suppressed_delete_iff {n a : String} :
    ({ db with suppressions := db.suppressions.delete fun s => s.address = n } :
      Database).suppressed a ↔ db.suppressed a ∧ a ≠ n := by
  simp only [suppressed_iff, Table.mem_delete, decide_eq_false_iff_not]
  constructor
  · rintro ⟨row, ⟨mem, other⟩, rfl⟩
    exact ⟨⟨row, mem, rfl⟩, other⟩
  · rintro ⟨⟨row, mem, rfl⟩, other⟩
    exact ⟨row, ⟨mem, other⟩, rfl⟩

theorem sessionScope_addSuppression_error {address : String} {e : Raised}
    (unreadable : normaliseAddress rt address = .error e) (race : Race) (now : Time)
    (source : SuppressionSource) (reason : Option String) (projectId : Option Nat) :
    sessionScope (addSuppression rt race now address source reason projectId) db =
      (.error e, db) := by
  exact sessionScope_error (addSuppression_error unreadable)

/-- Where the columns do not take the row, the list stays as it is. -/
theorem sessionScope_addSuppression_refused {address n : String}
    (normal : normaliseAddress rt address = .ok n) {reason : Option String}
    (bad : (rt.columnTakes 320 n && reason.all rt.storesText) = false) (race : Race) (now : Time)
    (source : SuppressionSource) (projectId : Option Nat) :
    (sessionScope (addSuppression rt race now address source reason projectId) db).2 = db := by
  cases found : db.suppressions.find? n with
  | some existing =>
      rw [sessionScope_ok (addSuppression_existing (s := .begin db) normal found)]
      rfl
  | none =>
      rw [sessionScope_error (addSuppression_refused (s := .begin db) normal found bad)]
      rfl

/-- Afterwards the address is on the list, whoever was faster. -/
theorem suppressed_addSuppression {address n : String}
    (normal : normaliseAddress rt address = .ok n)
    {reason : Option String} (fits : (rt.columnTakes 320 n && reason.all rt.storesText) = true)
    (race : Race) (now : Time) (source : SuppressionSource) (projectId : Option Nat) (a : String) :
    (sessionScope (addSuppression rt race now address source reason projectId) db).2.suppressed a ↔
      a = n ∨ db.suppressed a := by
  cases found : db.suppressions.find? n with
  | some existing =>
      rw [sessionScope_ok (addSuppression_existing (s := .begin db) normal found)]
      refine (or_iff_right_of_imp ?_).symm
      rintro rfl
      exact ne_of_eq_of_ne found (Option.some_ne_none existing)
  | none =>
      cases raced : race n with
      | none =>
          rw [sessionScope_ok (addSuppression_created (s := .begin db) normal found fits raced)]
          simp only [Database.suppressed, Session.begin, Table.find?_insert]
          by_cases same : a = n <;> simp [same]
      | some rival =>
          obtain ⟨existing, run⟩ : ∃ existing : Suppression,
              (addSuppression rt race now address source reason projectId).exec (.begin db) =
                (.ok (existing, false), _) := addSuppression_conflict normal found fits raced
          rw [sessionScope_ok run]
          exact suppressed_addSuppressionRow_iff

/-- The list after a change holds what the change means. -/
theorem suppressed_apply (change : ListChange) (a : String) :
    (change.apply rt db).suppressed a ↔ a ∈ change.meaning rt {a | db.suppressed a} := by
  cases change with
  | remove address =>
      simp only [ListChange.apply, ListChange.meaning, removeSuppression]
      cases normaliseAddress rt address with
      | error => exact Iff.rfl
      | ok n => exact suppressed_delete_iff
  | add address source reason projectId race now =>
      simp only [ListChange.apply, ListChange.meaning]
      cases normal : normaliseAddress rt address with
      | error e =>
          rw [sessionScope_addSuppression_error normal]
          exact Iff.rfl
      | ok n =>
          cases fits : rt.columnTakes 320 n && reason.all rt.storesText with
          | false =>
              rw [sessionScope_addSuppression_refused normal fits]
              simp only [fits, Bool.false_eq_true, if_false]
              exact Iff.rfl
          | true =>
              simp only [fits, if_true]
              exact suppressed_addSuppression normal fits race now source projectId a

theorem suppressed_afterChanges (db : Database) (history : List ListChange) (a : String) :
    (afterChanges rt db history).suppressed a ↔
      a ∈ blockedBy rt {a | db.suppressed a} history := by
  induction history generalizing db with
  | nil => exact Iff.rfl
  | cons change history ih =>
      have same : {a | (change.apply rt db).suppressed a} =
          change.meaning rt {a | db.suppressed a} := Set.ext (suppressed_apply change)
      refine (ih (change.apply rt db)).trans ?_
      rw [same]
      exact Iff.rfl

end Change

/-! What is accepted. -/

section Accepted
variable {rt : Runtime}

/-- The addresses that are kept are never dropped again, and each value adds its own. -/
theorem normaliseRecipientsFrom_covers {field : String} {values out result : List String}
    (run : normaliseRecipientsFrom rt field out values = .ok result) :
    (∀ a ∈ out, a ∈ result) ∧
      ∀ raw ∈ values, ∃ a ∈ result, normaliseAddress rt raw = .ok a := by
  induction values generalizing out with
  | nil =>
      cases run
      exact ⟨fun _ mem => mem, fun _ mem => nomatch mem⟩
  | cons raw values ih =>
      obtain ⟨normal, run⟩ := normaliseRecipientsFrom_cons run
      obtain ⟨kept, covered⟩ := ih run
      have added : rt.canonical raw ∈ result := by
        apply kept
        split
        · assumption
        · simp
      refine ⟨fun a mem => kept a ?_, fun other mem => ?_⟩
      · split
        · exact mem
        · exact List.mem_append_left _ mem
      · cases mem with
        | head => exact ⟨rt.canonical raw, added, normal⟩
        | tail _ mem => exact covered other mem

theorem Vetted.covers {db : Database} {principal : Principal} {request : SendEmailRequest}
    {displayName : Option String} {identity : SenderIdentity} {toList ccList bccList : List String}
    (v : Vetted rt db principal request displayName identity toList ccList bccList)
    {raw : String} (mem : raw ∈ request.allRecipients) :
    ∃ a ∈ toList ++ ccList ++ bccList, normaliseAddress rt raw = .ok a := by
  simp only [SendEmailRequest.allRecipients, List.mem_append] at mem ⊢
  rcases mem with (mem | mem) | mem
  · obtain ⟨a, kept, normal⟩ := (normaliseRecipientsFrom_covers v.toNormal).2 raw mem
    exact ⟨a, .inl (.inl kept), normal⟩
  · obtain ⟨a, kept, normal⟩ := (normaliseRecipientsFrom_covers v.ccNormal).2 raw mem
    exact ⟨a, .inl (.inr kept), normal⟩
  · obtain ⟨a, kept, normal⟩ := (normaliseRecipientsFrom_covers v.bccNormal).2 raw mem
    exact ⟨a, .inr kept, normal⟩

/-- With the fixed-point law, an address that has passed the normaliser is its own normal
form. -/
theorem normaliseAddress_fixed (fixed : rt.CanonicalFixed) {raw a : String}
    (normal : normaliseAddress rt raw = .ok a) (shallow : rt.overflows a = false) :
    normaliseAddress rt a = .ok a := by
  obtain ⟨-, shape, rfl⟩ := normaliseAddress_eq_ok.mp normal
  exact normaliseAddress_eq_ok.mpr ⟨shallow, shape, fixed raw shape⟩

/-- After any history of changes a message is stored only if nobody it was requested for is
suppressed, however the address is spelled: neither by the lookup nor by the addresses that
the history leaves blocked. -/
theorem stores_only_unsuppressed (fixed : rt.CanonicalFixed)
    (hash : List (String × PayloadValue) → String) (ttl : Nat) (principal : Principal)
    (request : SendEmailRequest) (key : Option String) (draw : IngestDraw) (now : Time)
    (before : Database) (history : List ListChange)
    (stored : ∃ m ∈ (sessionScope (ingestMessage rt hash ttl principal request key draw now)
      (afterChanges rt before history)).2.messages, m ∉ (afterChanges rt before history).messages)
    {raw : String} (mem : raw ∈ request.allRecipients) :
    isSuppressed rt (afterChanges rt before history) raw = .ok false ∧
      ∀ a, normaliseAddress rt raw = .ok a →
        a ∉ blockedBy rt {a | before.suppressed a} history := by
  have ends := ingestMessage_ends rt hash ttl principal request key draw now
    (afterChanges rt before history)
  dsimp only at ends
  obtain ⟨m, fresh, unknown⟩ := stored
  generalize sessionScope (ingestMessage rt hash ttl principal request key draw now)
    (afterChanges rt before history) = run at *
  obtain ⟨result, after⟩ := run
  cases ends with
  | refused => exact absurd fresh unknown
  | replayed => exact absurd fresh unknown
  | stored vetted =>
      obtain ⟨a, kept, normal⟩ := vetted.covers mem
      obtain ⟨shallow, unlisted⟩ := vetted.checked.unreported a kept
      have free := unlisted a (normaliseAddress_fixed fixed normal shallow)
      refine ⟨isSuppressed_eq_ok.mpr ⟨a, normal, decide_eq_false free⟩, fun b same blocked => ?_⟩
      obtain rfl := Except.ok.inj (normal.symm.trans same)
      exact free ((suppressed_afterChanges before history a).mpr blocked)

end Accepted

namespace Sample

/-- An address is read as it is or not at all. -/
theorem runtime_fixed : runtime.CanonicalFixed := by
  intro raw shape
  by_cases clean : strip raw = raw
  · simp [Runtime.canonical, runtime, clean]
  · exact absurd shape (by simp only [Runtime.canonical, runtime, clean, if_false]; decide)

/-- Bob was suppressed and is written to again; Carol still is not. -/
def withdrawn : List ListChange :=
  [.add "bob@example.net" .bounce none none noRace 0,
    .add "carol@example.net" .manual none none noRace 1, .remove "bob@example.net"]

end Sample

theorem bob_is_not_suppressed_any_more :
    isSuppressed Sample.runtime
        (afterChanges Sample.runtime (Sample.store Sample.mailbox) Sample.withdrawn)
        "bob@example.net" = .ok false ∧
      ∀ a, normaliseAddress Sample.runtime "bob@example.net" = .ok a →
        a ∉ blockedBy Sample.runtime {a | (Sample.store Sample.mailbox).suppressed a}
          Sample.withdrawn :=
  stores_only_unsuppressed Sample.runtime_fixed (fun _ => "") 24 (Sample.principal Sample.mailbox)
    (Sample.letter "bob@example.net" []) none ⟨1, "A"⟩ 2 (Sample.store Sample.mailbox)
    Sample.withdrawn ⟨newMessage (Sample.principal Sample.mailbox)
      (Sample.letter "bob@example.net" []) ⟨Sample.mailbox, Sample.domain⟩ none
      ["bob@example.net"] [] [] ⟨1, "A"⟩ 2, Table.mem_def.mpr (by decide),
      Table.mem_def.not.mpr (by decide)⟩ (by decide)

end Emaild
