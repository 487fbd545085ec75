import Emaild.Errors
import Emaild.Timeline
import Emaild.Relational.Session

/-!
The suppression list. `addSuppression` reads and then inserts; between the two
another transaction may commit a row for the same address, and the unique
constraint then fails the insert. A `Race` says for which addresses that happens.
-/
namespace Emaild
open Relational Text

/-- `normalise_address` -/
def normaliseAddress (rt : Runtime) (raw : String) : Except Raised String :=
  let address := rt.canonical raw
  if rt.overflows raw then .error recursionError
  else if WellShaped address then .ok address
  else .error (.invalidAddress s!"not a valid email address: {rt.repr raw}")

theorem normaliseAddress_eq_ok {rt : Runtime} {raw address : String} :
    normaliseAddress rt raw = .ok address ↔
      rt.overflows raw = false ∧ WellShaped address ∧ rt.canonical raw = address := by
  dsimp only [normaliseAddress]
  cases rt.overflows raw with
  | true => simp
  | false =>
      by_cases shape : WellShaped (rt.canonical raw)
      · rw [if_neg Bool.false_ne_true, if_pos shape]
        constructor
        · rintro ⟨⟩
          exact ⟨rfl, shape, rfl⟩
        · rintro ⟨-, -, rfl⟩
          rfl
      · rw [if_neg Bool.false_ne_true, if_neg shape]
        constructor
        · rintro ⟨⟩
        · rintro ⟨-, shape', rfl⟩
          exact absurd shape' shape

/-- An address is refused as invalid, or the stack is too small for it. -/
theorem normaliseAddress_error {rt : Runtime} {raw : String} {e : Raised}
    (h : normaliseAddress rt raw = .error e) :
    (rt.overflows raw = true ∧ e = recursionError) ∨
      (rt.overflows raw = false ∧ ¬ WellShaped (rt.canonical raw) ∧
        e = .invalidAddress s!"not a valid email address: {rt.repr raw}") := by
  dsimp only [normaliseAddress] at h
  cases deep : rt.overflows raw with
  | true =>
      rw [deep, if_pos rfl] at h
      exact .inl ⟨rfl, (Except.error.inj h).symm⟩
  | false =>
      rw [deep, if_neg Bool.false_ne_true] at h
      split at h
      · cases h
      · rename_i shapeless
        exact .inr ⟨rfl, shapeless, (Except.error.inj h).symm⟩

def Database.suppressed (db : Database) (address : String) : Prop :=
  db.suppressions.find? address ≠ none

instance (db : Database) (address : String) : Decidable (db.suppressed address) :=
  inferInstanceAs (Decidable (_ ≠ _))

theorem mem_normalForms {rt : Runtime} {addresses : List String} {address : String} :
    address ∈ addresses.filterMap (fun raw => (normaliseAddress rt raw).toOption) ↔
      ∃ raw ∈ addresses, normaliseAddress rt raw = .ok address := by
  rw [List.mem_filterMap]
  refine exists_congr fun raw => and_congr_right fun _ => ?_
  cases normaliseAddress rt raw <;> simp [Except.toOption]

/-- The addresses that can be normalised, in normal form. Those that are refused are left
out, and another exception leaves the loop. -/
def normalisable (rt : Runtime) : List String → Except Raised (List String)
  | [] => .ok []
  | raw :: addresses =>
      match normaliseAddress rt raw with
      | .ok address => (normalisable rt addresses).map (address :: ·)
      | .error (.invalidAddress _) => normalisable rt addresses
      | .error e => .error e

/-- `find_suppressed` -/
def findSuppressed (rt : Runtime) (db : Database) (addresses : List String) :
    Except Raised (List String) :=
  (normalisable rt addresses).map fun normalised =>
    (db.suppressions.rows.map Suppression.address).filter fun a => a ∈ normalised

/-- The list is read to its end if the stack is large enough for each of its addresses. -/
theorem normalisable_eq_ok {rt : Runtime} {addresses normalised : List String} :
    normalisable rt addresses = .ok normalised ↔ (∀ a ∈ addresses, rt.overflows a = false) ∧
      normalised = addresses.filterMap fun a => (normaliseAddress rt a).toOption := by
  induction addresses generalizing normalised with
  | nil =>
      simp only [normalisable, Except.ok.injEq, List.not_mem_nil, false_implies, implies_true,
        true_and, List.filterMap_nil]
      exact eq_comm
  | cons raw addresses ih =>
      rw [normalisable, List.forall_mem_cons, List.filterMap_cons]
      cases h : normaliseAddress rt raw with
      | ok address =>
          have shallow := (normaliseAddress_eq_ok.mp h).1
          cases rest : normalisable rt addresses with
          | error e =>
              have deep : ¬ ∀ a ∈ addresses, rt.overflows a = false := fun all => by
                cases rest.symm.trans (ih.mpr ⟨all, rfl⟩)
              simp [deep, Except.map]
          | ok more =>
              obtain ⟨all, rfl⟩ := ih.mp rest
              simp only [Except.map, Except.ok.injEq, shallow, true_and, Except.toOption]
              exact ⟨fun same => ⟨all, same.symm⟩, fun h => h.2.symm⟩
      | error e =>
          rcases normaliseAddress_error h with ⟨deep, rfl⟩ | ⟨shallow, -, rfl⟩
          · simp [deep, recursionError]
          · simp [shallow, ih, Except.toOption]

theorem normalisable_error {rt : Runtime} {addresses : List String} {e : Raised}
    (h : normalisable rt addresses = .error e) :
    e = recursionError ∧ ∃ a ∈ addresses, rt.overflows a = true := by
  induction addresses with
  | nil => cases h
  | cons raw addresses ih =>
      have later (rest : normalisable rt addresses = .error e) :
          e = recursionError ∧ ∃ a ∈ raw :: addresses, rt.overflows a = true := by
        obtain ⟨same, a, mem, deep⟩ := ih rest
        exact ⟨same, a, List.mem_cons_of_mem _ mem, deep⟩
      rw [normalisable] at h
      cases normal : normaliseAddress rt raw with
      | ok address =>
          rw [normal] at h
          cases rest : normalisable rt addresses with
          | error e' =>
              rw [rest] at h
              cases h
              exact later rest
          | ok more =>
              rw [rest] at h
              cases h
      | error e' =>
          rw [normal] at h
          rcases normaliseAddress_error normal with ⟨deep, rfl⟩ | ⟨_, _, rfl⟩
          · cases h
            exact ⟨rfl, raw, List.mem_cons_self, deep⟩
          · exact later h

theorem findSuppressed_eq_ok {rt : Runtime} {db : Database} {addresses rows : List String} :
    findSuppressed rt db addresses = .ok rows ↔ (∀ a ∈ addresses, rt.overflows a = false) ∧
      rows = (db.suppressions.rows.map Suppression.address).filter fun a =>
        a ∈ addresses.filterMap fun raw => (normaliseAddress rt raw).toOption := by
  unfold findSuppressed
  cases read : normalisable rt addresses with
  | error e =>
      have deep : ¬ ∀ a ∈ addresses, rt.overflows a = false := fun all => by
        cases read.symm.trans (normalisable_eq_ok.mpr ⟨all, rfl⟩)
      simp [deep, Except.map]
  | ok normalised =>
      obtain ⟨all, rfl⟩ := normalisable_eq_ok.mp read
      simp only [Except.map, Except.ok.injEq]
      exact ⟨fun same => ⟨all, same.symm⟩, fun h => h.2.symm⟩

/-- The stack is large enough for the address, and its normal form is not on the list. -/
def Unreported (rt : Runtime) (db : Database) (raw : String) : Prop :=
  rt.overflows raw = false ∧ ∀ a, normaliseAddress rt raw = .ok a → ¬ db.suppressed a

theorem findSuppressed_eq_nil {rt : Runtime} {db : Database} {addresses : List String} :
    findSuppressed rt db addresses = .ok [] ↔ ∀ raw ∈ addresses, Unreported rt db raw := by
  unfold Unreported
  rw [findSuppressed_eq_ok, eq_comm, List.filter_eq_nil_iff, forall₂_and]
  refine and_congr_right fun _ => ?_
  constructor
  · intro free raw given a normal listed
    obtain ⟨row, found⟩ := Option.ne_none_iff_exists'.mp listed
    refine free a (List.mem_map.mpr ⟨row, Table.mem_of_find? found, Table.key_of_find? found⟩) ?_
    exact decide_eq_true (mem_normalForms.mpr ⟨raw, given, normal⟩)
  · intro free a listed reported
    obtain ⟨row, mem, rfl⟩ := List.mem_map.mp listed
    obtain ⟨raw, given, normal⟩ := mem_normalForms.mp (of_decide_eq_true reported)
    refine free raw given _ normal ?_
    rw [Database.suppressed, Table.find?_of_mem mem]
    exact Option.some_ne_none _

/-- The columns take the row. -/
def Suppression.storable (rt : Runtime) (s : Suppression) : Bool :=
  rt.columnTakes 320 s.address && s.reason.all rt.storesText

/-- The row another transaction commits for an address between the lookup and
the insert, if one does. -/
abbrev Race := String → Option Suppression

def noRace : Race := fun _ => none

/-- A committed insert; a row whose address is taken is not inserted. -/
def Database.addSuppressionRow (db : Database) (row : Suppression) : Database :=
  match db.suppressions.insert? row with
  | some suppressions => { db with suppressions := suppressions }
  | none => db

@[simp] theorem addSuppressionRow_events (db : Database) (row : Suppression) :
    (db.addSuppressionRow row).events = db.events := by
  unfold Database.addSuppressionRow; split <;> rfl

theorem bystander_addSuppressionRow (db : Database) (row : Suppression) :
    Bystander db (db.addSuppressionRow row) := by
  unfold Database.addSuppressionRow; split <;> exact ⟨rfl, rfl, rfl⟩

theorem suppressed_addSuppressionRow_iff {db : Database} {row : Suppression} {a : String} :
    (db.addSuppressionRow row).suppressed a ↔ a = row.address ∨ db.suppressed a := by
  unfold Database.addSuppressionRow Database.suppressed Table.insert?
  split
  · rename_i inserted
    split at inserted
    · cases inserted
      rw [Table.find?_insert]
      by_cases same : a = row.address <;> simp [same]
    · cases inserted
  · rename_i refused
    split at refused
    · cases refused
    · rename_i taken
      refine (or_iff_right_of_imp ?_).symm
      rintro rfl
      exact taken

theorem suppressed_addSuppressionRow (db : Database) (row : Suppression) :
    (db.addSuppressionRow row).suppressed row.address :=
  suppressed_addSuppressionRow_iff.mpr (.inl rfl)

/-- The insert of `add_suppression`, of a row that the columns take. -/
def insertSuppression (race : Race) (record : Suppression) :
    Tx Database Raised (Suppression × Bool) := do
  match race record.address with
  | some rival =>
      Tx.interfere fun db => db.addSuppressionRow { rival with address := record.address }
  | none => pure ⟨⟩
  match (← Tx.look).working.suppressions.insert? record with
  | some suppressions =>
      Tx.write fun db => { db with suppressions := suppressions }
      return (record, true)
  | none =>
      -- another worker was faster; the caller's whole transaction goes with it
      Tx.rollback
      match (← Tx.look).working.suppressions.find? record.address with
      | some existing => return (existing, false)
      | none => throw .noResultFound

/-- `add_suppression` -/
def addSuppression (rt : Runtime) (race : Race) (now : Time) (address : String)
    (source : SuppressionSource) (reason : Option String) (projectId : Option Nat) :
    Tx Database Raised (Suppression × Bool) := do
  let normalised ← Tx.lift (normaliseAddress rt address)
  match (← Tx.look).working.suppressions.find? normalised with
  | some existing => return (existing, false)
  | none =>
      let record : Suppression := ⟨normalised, source, reason, projectId, now⟩
      if record.storable rt then insertSuppression race record else throw .dataError

section AddSuppression
variable {rt : Runtime} {race : Race} {now : Time} {address normalised : String}
  {source : SuppressionSource} {reason : Option String} {projectId : Option Nat}
  {s : Session Database}

/-- What does not depend on the other columns of the row. -/
theorem storable_row : (⟨normalised, source, reason, projectId, now⟩ : Suppression).storable rt =
    (rt.columnTakes 320 normalised && reason.all rt.storesText) := rfl

/-- The address is refused, or nests too deeply. -/
theorem addSuppression_error {e : Raised} (h : normaliseAddress rt address = .error e) :
    (addSuppression rt race now address source reason projectId).exec s = (.error e, s) := by
  unfold addSuppression
  rw [h, Tx.exec_bind_error (Tx.exec_lift _ _)]

/-- The address is on the list already. -/
theorem addSuppression_existing (h : normaliseAddress rt address = .ok normalised)
    {existing : Suppression} (found : s.working.suppressions.find? normalised = some existing) :
    (addSuppression rt race now address source reason projectId).exec s =
      (.ok (existing, false), s) := by
  unfold addSuppression
  rw [h, Tx.exec_bind_ok (Tx.exec_lift _ _), Tx.exec_bind_ok (Tx.exec_look _)]
  simp [found]

/-- The columns do not take the row. -/
theorem addSuppression_refused (h : normaliseAddress rt address = .ok normalised)
    (free : s.working.suppressions.find? normalised = none)
    (bad : (rt.columnTakes 320 normalised && reason.all rt.storesText) = false) :
    (addSuppression rt race now address source reason projectId).exec s =
      (.error .dataError, s) := by
  unfold addSuppression
  rw [h, Tx.exec_bind_ok (Tx.exec_lift _ _), Tx.exec_bind_ok (Tx.exec_look _)]
  simp only [free, storable_row, bad]
  rfl

theorem addSuppression_insert (h : normaliseAddress rt address = .ok normalised)
    (free : s.working.suppressions.find? normalised = none)
    (fits : (rt.columnTakes 320 normalised && reason.all rt.storesText) = true) :
    (addSuppression rt race now address source reason projectId).exec s =
      (insertSuppression race ⟨normalised, source, reason, projectId, now⟩).exec s := by
  unfold addSuppression
  rw [h, Tx.exec_bind_ok (Tx.exec_lift _ _), Tx.exec_bind_ok (Tx.exec_look _)]
  simp only [free, storable_row, fits, if_true]

/-- Nobody else is about to add it. -/
theorem addSuppression_created (h : normaliseAddress rt address = .ok normalised)
    (free : s.working.suppressions.find? normalised = none)
    (fits : (rt.columnTakes 320 normalised && reason.all rt.storesText) = true)
    (calm : race normalised = none) :
    (addSuppression rt race now address source reason projectId).exec s =
      (.ok (⟨normalised, source, reason, projectId, now⟩, true),
        { s with working := { s.working with
          suppressions := s.working.suppressions.insert
            ⟨normalised, source, reason, projectId, now⟩ free } }) := by
  rw [addSuppression_insert h free fits]
  unfold insertSuppression
  have inserted : s.working.suppressions.insert? ⟨normalised, source, reason, projectId, now⟩ =
      some (s.working.suppressions.insert ⟨normalised, source, reason, projectId, now⟩ free) :=
    dif_pos free
  simp only [calm]
  rw [Tx.exec_bind_ok (Tx.exec_look _)]
  simp only [inserted]
  rfl

/-- Another transaction was faster: the session is rolled back to the committed
store, which now holds the other row. -/
theorem addSuppression_conflict (h : normaliseAddress rt address = .ok normalised)
    (free : s.working.suppressions.find? normalised = none)
    (fits : (rt.columnTakes 320 normalised && reason.all rt.storesText) = true)
    {rival : Suppression}
    (hit : race normalised = some rival) :
    ∃ existing, (addSuppression rt race now address source reason projectId).exec s =
      (.ok (existing, false),
        ⟨s.committed.addSuppressionRow { rival with address := normalised },
          s.committed.addSuppressionRow { rival with address := normalised }, true⟩) := by
  have taken := suppressed_addSuppressionRow s.working { rival with address := normalised }
  have there := suppressed_addSuppressionRow s.committed { rival with address := normalised }
  obtain ⟨existing, found⟩ := Option.ne_none_iff_exists'.mp there
  refine ⟨existing, ?_⟩
  rw [addSuppression_insert h free fits]
  unfold insertSuppression
  have refused :
      (s.working.addSuppressionRow { rival with address := normalised }).suppressions.insert?
        ⟨normalised, source, reason, projectId, now⟩ = none := dif_neg taken
  simp only [hit]
  rw [Tx.exec_bind_ok (Tx.exec_interfere _ _), Tx.exec_bind_ok (Tx.exec_look _)]
  simp only [refused]
  rw [Tx.exec_bind_ok (Tx.exec_rollback _), Tx.exec_bind_ok (Tx.exec_look _)]
  dsimp only at found ⊢
  rw [found]
  rfl

/-- Whatever happens, adding a suppression touches nothing but the list. -/
theorem addSuppression_only (address : String) :
    (∃ suppressions,
      ((addSuppression rt noRace now address source reason projectId).exec s).2.working =
        { s.working with suppressions := suppressions }) ∧
      ((addSuppression rt noRace now address source reason projectId).exec s).2.committed =
        s.committed := by
  cases h : normaliseAddress rt address with
  | error e =>
      rw [addSuppression_error h]
      exact ⟨⟨_, rfl⟩, rfl⟩
  | ok normalised =>
      cases found : s.working.suppressions.find? normalised with
      | some existing =>
          rw [addSuppression_existing h found]
          exact ⟨⟨_, rfl⟩, rfl⟩
      | none =>
          cases fits : rt.columnTakes 320 normalised && reason.all rt.storesText with
          | false =>
              rw [addSuppression_refused h found fits]
              exact ⟨⟨_, rfl⟩, rfl⟩
          | true =>
              rw [addSuppression_created h found fits rfl]
              exact ⟨⟨_, rfl⟩, rfl⟩

/-- The same of the whole transaction. -/
theorem sessionScope_addSuppression (db : Database) (address : String) : ∃ suppressions,
    (sessionScope (addSuppression rt noRace now address source reason projectId) db).2 =
      { db with suppressions := suppressions } := by
  obtain ⟨⟨suppressions, working⟩, committed⟩ :=
    @addSuppression_only rt now source reason projectId (.begin db) address
  unfold sessionScope
  split
  · rename_i run
    rw [run] at working
    exact ⟨suppressions, working⟩
  · rename_i run
    rw [run] at committed
    exact ⟨db.suppressions, committed⟩

theorem addSuppression_aside (db : Database) (address : String) : Bystander db
    (sessionScope (addSuppression rt noRace now address source reason projectId) db).2 := by
  obtain ⟨suppressions, only⟩ :=
    @sessionScope_addSuppression rt now source reason projectId db address
  rw [only]
  exact ⟨rfl, rfl, rfl⟩

end AddSuppression

/-- `remove_suppression` -/
def removeSuppression (rt : Runtime) (db : Database) (address : String) :
    Except Raised (Bool × Database) :=
  match normaliseAddress rt address with
  | .error e => .error e
  | .ok normalised =>
      .ok (decide (db.suppressed normalised),
        { db with suppressions := db.suppressions.delete fun s => s.address = normalised })

theorem removeSuppression_only {rt : Runtime} {db db' : Database} {address : String}
    {removed : Bool} (h : removeSuppression rt db address = .ok (removed, db')) :
    ∃ suppressions, db' = { db with suppressions := suppressions } := by
  unfold removeSuppression at h
  split at h
  · cases h
  · cases h
    exact ⟨_, rfl⟩

theorem removeSuppression_bystander {rt : Runtime} {db db' : Database} {address : String}
    {removed : Bool} (h : removeSuppression rt db address = .ok (removed, db')) :
    Bystander db db' := by
  obtain ⟨suppressions, rfl⟩ := removeSuppression_only h
  exact ⟨rfl, rfl, rfl⟩

end Emaild
