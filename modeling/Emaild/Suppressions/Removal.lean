import Mathlib.Data.Prod.Lex
import Mathlib.Data.String.Basic
import Emaild.Relational.Query
import Emaild.Suppressions.Blocking

/-!
Taking an address off the list. The operator's command looks for the entry on the first
page of the listing, under the address as it was typed, and deletes it under the address
in normal form.
-/
namespace Emaild
open Relational Text

def SuppressionSource.value : SuppressionSource → String
  | manual => "manual"
  | bounce => "bounce"
  | complaint => "complaint"

section Listing
variable {ι : Type} [LinearOrder ι] (slot : String ↪ ι)

/-- `ORDER BY created_at DESC`. Rows of one moment come in the order of their slots, which
may be any. -/
def Suppression.rank (row : Suppression) : Timeᵒᵈ ×ₗ ι :=
  toLex (OrderDual.toDual row.createdAt, slot row.address)

/-- `list_suppressions` -/
def listSuppressions (db : Database) (limit offset : Nat) (projectId : Option Nat) :
    List Suppression :=
  let rows := db.suppressions.rows.filter fun row =>
    projectId.all fun id => decide (row.projectId = some id)
  ((rows.insertionSort fun a b => a.rank slot ≤ b.rank slot).drop offset).take (min limit 1000)

/-- The operator sees the entries that fewer than a thousand stand before. -/
theorem mem_listSuppressions {db : Database} {row : Suppression} :
    row ∈ listSuppressions slot db 1000 0 none ↔ row ∈ db.suppressions ∧
      db.suppressions.count (fun other => other.rank slot < row.rank slot) < 1000 := by
  have distinct : (db.suppressions.rows.map (Suppression.rank slot)).Nodup := by
    refine db.suppressions.nodup.of_map.map_on fun a ha b hb same => ?_
    exact Table.eq_of_key_eq ha hb (slot.injective (Prod.mk.inj (toLex_inj.mp same)).2)
  have all : (db.suppressions.rows.filter fun _ => true) = db.suppressions.rows :=
    List.filter_true _
  simp only [listSuppressions, Option.all_none, all, List.drop_zero, min_self]
  exact mem_take_insertionSort distinct 1000

end Listing

/-! The command. -/

/-- What a command leaves on the terminal, and its exit code. -/
structure Printed where
  exit : Nat
  out : List String := []
  err : List String := []
  deriving DecidableEq

section Command
variable {ι : Type} [LinearOrder ι] (rt : Runtime) (slot : String ↪ ι)

/-- The entry that the command takes the address for. -/
def matching (db : Database) (address : String) : Option Suppression :=
  (listSuppressions slot db 1000 0 none).find? fun row => row.address = rt.lower (strip address)

/-- `cmd_suppressions_remove` -/
def cmdSuppressionsRemove (address : String) (yes : Bool) : Tx Database Raised Printed := do
  -- the listing reads no address, so the handler around it is never entered
  match matching rt slot (← Tx.look).working address with
  | none => return { exit := exitFailed, err := [s!"Not suppressed: {address}"] }
  | some row =>
      if yes = false then
        let reason := if orEmpty row.reason = "" then "-" else orEmpty row.reason
        return {
          exit := exitUsage
          out := [s!"About to resume sending to {row.address}",
            s!"  suppressed {minuteStamp row.createdAt} (source={row.source.value})",
            s!"  reason: {reason}",
            "", "Re-run with --yes to confirm."] }
      else
        let (removed, db) ← Tx.lift (removeSuppression rt (← Tx.look).working address)
        Tx.write fun _ => db
        return {
          exit := exitOk
          out := [if removed then s!"Removed suppression for {address}" else "Nothing removed"] }

variable {rt : Runtime} {slot : String ↪ ι} {db : Database} {address : String}

theorem listed_of_matching {row : Suppression} (found : matching rt slot db address = some row) :
    row ∈ listSuppressions slot db 1000 0 none ∧ row.address = rt.lower (strip address) :=
  ⟨List.mem_of_find?_eq_some found, by simpa using List.find?_some found⟩

theorem matching_of_listed {row : Suppression} (listed : row ∈ listSuppressions slot db 1000 0 none)
    (typed : row.address = rt.lower (strip address)) : matching rt slot db address = some row := by
  cases found : matching rt slot db address with
  | none => exact absurd (decide_eq_true typed) (List.find?_eq_none.mp found row listed)
  | some other =>
      obtain ⟨listed', typed'⟩ := listed_of_matching found
      exact congrArg some (Table.eq_of_key_eq ((mem_listSuppressions slot).mp listed').1
        ((mem_listSuppressions slot).mp listed).1 (typed'.trans typed.symm))

theorem sessionScope_remove_missing (missing : matching rt slot db address = none) :
    sessionScope (cmdSuppressionsRemove rt slot address true) db =
      (.ok { exit := exitFailed, err := [s!"Not suppressed: {address}"] }, db) := by
  have run : (cmdSuppressionsRemove rt slot address true).exec (.begin db) =
      (.ok { exit := exitFailed, err := [s!"Not suppressed: {address}"] }, .begin db) := by
    unfold cmdSuppressionsRemove
    rw [Tx.exec_bind_ok (Tx.exec_look _), Session.begin, missing]
    exact Tx.exec_pure _ _
  exact sessionScope_ok run

theorem sessionScope_remove_found {row : Suppression}
    (found : matching rt slot db address = some row) :
    sessionScope (cmdSuppressionsRemove rt slot address true) db =
      match removeSuppression rt db address with
      | .error e => (.error e, db)
      | .ok (removed, after) => (.ok {
          exit := exitOk
          out := [if removed then s!"Removed suppression for {address}" else "Nothing removed"] },
          after) := by
  cases attempted : removeSuppression rt db address with
  | error e =>
      have run : (cmdSuppressionsRemove rt slot address true).exec (.begin db) =
          (.error e, .begin db) := by
        unfold cmdSuppressionsRemove
        rw [Tx.exec_bind_ok (Tx.exec_look _), Session.begin, found]
        dsimp only
        rw [if_neg (by decide), Tx.exec_bind_ok (Tx.exec_look _), attempted,
          Tx.exec_bind_error (Tx.exec_lift _ _)]
      exact sessionScope_error run
  | ok parts =>
      obtain ⟨removed, after⟩ := parts
      have run : (cmdSuppressionsRemove rt slot address true).exec (.begin db) =
          (.ok {
            exit := exitOk
            out := [if removed then s!"Removed suppression for {address}" else "Nothing removed"] },
            { Session.begin db with working := after }) := by
        unfold cmdSuppressionsRemove
        rw [Tx.exec_bind_ok (Tx.exec_look _), Session.begin, found]
        dsimp only
        rw [if_neg (by decide), Tx.exec_bind_ok (Tx.exec_look _), attempted,
          Tx.exec_bind_ok (Tx.exec_lift _ _), Tx.exec_bind_ok (Tx.exec_write _ _)]
        exact Tx.exec_pure _ _
      exact sessionScope_ok run

/-- A suppressed address is found under its entry, taken off the list and reported so. For
any other address the list stays as it is. -/
structure Removes (rt : Runtime) (slot : String ↪ ι) (db : Database) (address : String) : Prop where
  removed : isSuppressed rt db address = .ok true →
    ∃ row after, matching rt slot db address = some row ∧
      normaliseAddress rt address = .ok row.address ∧
      sessionScope (cmdSuppressionsRemove rt slot address true) db =
        (.ok { exit := exitOk, out := [s!"Removed suppression for {address}"] }, after) ∧
      row ∉ after.suppressions ∧ isSuppressed rt after address = .ok false
  untouched : isSuppressed rt db address ≠ .ok true →
    (sessionScope (cmdSuppressionsRemove rt slot address true) db).2.suppressions.rows =
      db.suppressions.rows

theorem suppressions_of_not_suppressed (free : isSuppressed rt db address ≠ .ok true) :
    (sessionScope (cmdSuppressionsRemove rt slot address true) db).2.suppressions.rows =
      db.suppressions.rows := by
  cases found : matching rt slot db address with
  | none => rw [sessionScope_remove_missing found]
  | some row =>
      rw [sessionScope_remove_found found, removeSuppression]
      cases normal : normaliseAddress rt address with
      | error => rfl
      | ok n =>
          have absent : ¬ db.suppressed n := fun there =>
            free (isSuppressed_eq_ok.mpr ⟨n, normal, decide_eq_true there⟩)
          refine List.filter_eq_self.mpr fun other mem => ?_
          have : other.address ≠ n := fun same => absent (suppressed_iff.mpr ⟨other, mem, same⟩)
          simpa using this

/-- The command takes an address off the list, and changes nothing for one that is not on it,
exactly if the address is not suppressed or is typed in normal form, but for case and
surrounding white space, and fewer than a thousand entries are listed before its own. -/
theorem removes_iff (rt : Runtime) (slot : String ↪ ι) (db : Database) (address : String) :
    Removes rt slot db address ↔ (isSuppressed rt db address = .ok true →
      normaliseAddress rt address = .ok (rt.lower (strip address)) ∧
        ∃ row ∈ db.suppressions, row.address = rt.lower (strip address) ∧
          db.suppressions.count (fun other => other.rank slot < row.rank slot) < 1000) := by
  constructor
  · intro removes listed
    obtain ⟨row, _, found, normal, _⟩ := removes.removed listed
    obtain ⟨shown, typed⟩ := listed_of_matching found
    obtain ⟨mem, few⟩ := (mem_listSuppressions slot).mp shown
    exact ⟨typed ▸ normal, row, mem, typed, few⟩
  · intro reached
    refine ⟨fun listed => ?_, suppressions_of_not_suppressed⟩
    obtain ⟨normal, row, mem, typed, few⟩ := reached listed
    rw [← typed] at normal
    have found := matching_of_listed ((mem_listSuppressions slot).mpr ⟨mem, few⟩) typed
    have there : db.suppressed row.address := suppressed_iff.mpr ⟨row, mem, rfl⟩
    refine ⟨row, { db with suppressions := db.suppressions.delete fun s =>
      s.address = row.address }, found, normal, ?_, ?_, ?_⟩
    · rw [sessionScope_remove_found found, removeSuppression, normal]
      simp only [decide_eq_true there, if_true]
    · simp [Table.mem_delete]
    · refine isSuppressed_eq_ok.mpr ⟨row.address, normal, decide_eq_false fun left => ?_⟩
      exact (suppressed_delete_iff.mp left).2 rfl

end Command

namespace Sample

/-- One recipient has a display name. -/
def namedRuntime : Runtime where
  parseaddr raw :=
    if raw = "Ann <ann@example.net>" then ("Ann", "ann@example.net") else runtime.parseaddr raw
  overflows _ := false
  lone _ := false
  lower := id
  repr s := s!"'{s}'"
  sha256 := id

def annSuppressed : Database :=
  { store mailbox with
    suppressions := Table.empty.insert ⟨"ann@example.net", .bounce, none, none, 0⟩ rfl }

end Sample

/-- An operator who copies the recipient of a message is told that it is not suppressed. -/
theorem blocked_recipient_is_not_found : ¬ ∀ (rt : Runtime) (slot : String ↪ String)
    (db : Database) (address : String), Removes rt slot db address := by
  intro claim
  obtain ⟨row, _, found, _⟩ := (claim Sample.namedRuntime (.refl String) Sample.annSuppressed
    "Ann <ann@example.net>").removed (by decide)
  have missing : matching Sample.namedRuntime (.refl String) Sample.annSuppressed
    "Ann <ann@example.net>" = none := by decide
  rw [missing] at found
  cases found

end Emaild
