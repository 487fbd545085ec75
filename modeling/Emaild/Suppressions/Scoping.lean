import Emaild.Auth
import Emaild.Suppressions.Removal

/-!
The suppression list as a project sees it through its keys. Blocking is for everybody; a
listing shows the entries that are attributed to the project that asks.
-/
namespace Emaild
open Relational Text

/-- A body that has passed schema validation. -/
structure AddSuppressionRequest where
  address : String
  reason : Option String := none
  addressLength : 3 ≤ address.length := by decide
  reasonLength : (orEmpty reason).length ≤ 500 := by decide

structure SuppressionView where
  address : String
  source : String
  reason : Option String
  createdAt : String
  deriving DecidableEq

structure SuppressionListView where
  total : Nat
  data : List SuppressionView
  deriving DecidableEq

def Suppression.view (row : Suppression) : SuppressionView where
  address := row.address
  source := row.source.value
  reason := row.reason
  createdAt := isoFormat row.createdAt

/-- `count_suppressions` -/
def countSuppressions (db : Database) (projectId : Option Nat) : Nat :=
  db.suppressions.count fun row => projectId.all fun id => decide (row.projectId = some id)

/-- `request.reason or f"added via API by project {principal.project_name}"` -/
def AddSuppressionRequest.reasonFor (principal : Principal) (request : AddSuppressionRequest) :
    String :=
  if orEmpty request.reason = "" then s!"added via API by project {principal.projectName}"
  else orEmpty request.reason

/-- `create_suppression` -/
def createSuppression (rt : Runtime) (race : Race) (now : Time) (principal : Principal)
    (request : AddSuppressionRequest) : Tx Database Raised SuppressionView := do
  match ← Tx.attempt (addSuppression rt race now request.address .manual
      (some (request.reasonFor principal)) (some principal.projectId)) with
  | .error (.invalidAddress message) => throw (.api {
      errorType := .validationError, message := message, param := some "address" })
  | .error e => throw e
  | .ok (record, _) => return record.view

section Listing
variable {ι : Type} [LinearOrder ι] (slot : String ↪ ι)

/-- `get_suppressions` -/
def getSuppressions (db : Database) (principal : Principal) (limit offset : Nat) :
    SuppressionListView where
  total := countSuppressions db (some principal.projectId)
  data := (listSuppressions slot db limit offset (some principal.projectId)).map Suppression.view

/-- Some page of the project's listing shows the address. -/
def Shows (db : Database) (principal : Principal) (address : String) : Prop :=
  ∃ limit offset, ∃ view ∈ (getSuppressions slot db principal limit offset).data,
    view.address = address

variable {db : Database} {row : Suppression} {projectId : Nat}

/-- The pages of a project's listing hold the entries that are attributed to it. -/
theorem mem_pages : (∃ limit offset, row ∈ listSuppressions slot db limit offset (some projectId)) ↔
    row ∈ db.suppressions ∧ row.projectId = some projectId := by
  have sorted : ∀ other, other ∈ (db.suppressions.rows.filter fun row =>
        decide (row.projectId = some projectId)).insertionSort
          (fun a b => a.rank slot ≤ b.rank slot) ↔
      other ∈ db.suppressions ∧ other.projectId = some projectId := fun other => by
    rw [(List.perm_insertionSort _ _).mem_iff, List.mem_filter, decide_eq_true_eq, Table.mem_def]
  rw [← sorted]
  simp only [listSuppressions, Option.all_some]
  constructor
  · rintro ⟨limit, offset, mem⟩
    exact List.mem_of_mem_drop (List.mem_of_mem_take mem)
  · intro mem
    obtain ⟨before, after, split⟩ := List.append_of_mem mem
    refine ⟨1, before.length, ?_⟩
    rw [split, List.drop_left]
    exact List.mem_cons_self

theorem shows_iff {principal : Principal} {address : String} : Shows slot db principal address ↔
    ∃ row ∈ db.suppressions, row.projectId = some principal.projectId ∧ row.address = address := by
  constructor
  · rintro ⟨limit, offset, view, shown, same⟩
    obtain ⟨row, listed, rfl⟩ := List.mem_map.mp shown
    obtain ⟨mem, own⟩ := (mem_pages slot).mp ⟨limit, offset, listed⟩
    exact ⟨row, mem, own, same⟩
  · rintro ⟨row, mem, own, same⟩
    obtain ⟨limit, offset, listed⟩ := (mem_pages slot).mpr ⟨mem, own⟩
    exact ⟨limit, offset, row.view, List.mem_map_of_mem listed, same⟩

end Listing

/-- The row that a request adds. -/
def AddSuppressionRequest.row (principal : Principal) (now : Time) (normalised : String)
    (request : AddSuppressionRequest) : Suppression where
  address := normalised
  source := .manual
  reason := some (request.reasonFor principal)
  projectId := some principal.projectId
  createdAt := now

section Create
variable {rt : Runtime} (now : Time) (principal : Principal) {request : AddSuppressionRequest}
  (db : Database) {normalised : String}

/-- An address that has no normal form is refused, on any store in one way. -/
theorem createSuppression_invalid {e : Raised}
    (h : normaliseAddress rt request.address = .error e) :
    ∃ e', ∀ db, sessionScope (createSuppression rt noRace now principal request) db =
      (.error e', db) := by
  rcases normaliseAddress_error h with ⟨-, rfl⟩ | ⟨-, -, rfl⟩
  · refine ⟨recursionError, fun db => @sessionScope_error _ _ _ _ _ _ (.begin db) ?_⟩
    unfold createSuppression
    rw [Tx.exec_bind_ok (Tx.exec_attempt _ _), addSuppression_error h]
    rfl
  · refine ⟨.api {
      errorType := .validationError
      message := s!"not a valid email address: {rt.repr request.address}"
      param := some "address" }, fun db => @sessionScope_error _ _ _ _ _ _ (.begin db) ?_⟩
    unfold createSuppression
    rw [Tx.exec_bind_ok (Tx.exec_attempt _ _), addSuppression_error h]
    rfl

theorem createSuppression_existing (h : normaliseAddress rt request.address = .ok normalised)
    {row : Suppression} (found : db.suppressions.find? normalised = some row) :
    sessionScope (createSuppression rt noRace now principal request) db = (.ok row.view, db) := by
  refine @sessionScope_ok _ _ _ _ _ _ (.begin db) ?_
  unfold createSuppression
  rw [Tx.exec_bind_ok (Tx.exec_attempt _ _), addSuppression_existing h found]
  rfl

/-- Nobody has it on the list: it is added, if the columns take the row. -/
theorem createSuppression_new (h : normaliseAddress rt request.address = .ok normalised)
    (free : db.suppressions.find? normalised = none) :
    sessionScope (createSuppression rt noRace now principal request) db =
      if (request.row principal now normalised).storable rt = true then
        (.ok (request.row principal now normalised).view,
          { db with suppressions :=
            db.suppressions.insert (request.row principal now normalised) free })
      else (.error .dataError, db) := by
  split
  · rename_i stored
    have fits : (rt.columnTakes 320 normalised &&
        (some (request.reasonFor principal)).all rt.storesText) = true := stored
    have run : (createSuppression rt noRace now principal request).exec (.begin db) =
        (.ok (request.row principal now normalised).view,
          ⟨db, { db with suppressions :=
            db.suppressions.insert (request.row principal now normalised) free }, false⟩) := by
      unfold createSuppression
      rw [Tx.exec_bind_ok (Tx.exec_attempt _ _), addSuppression_created h free fits rfl]
      rfl
    exact sessionScope_ok run
  · rename_i bad
    have unfit : (rt.columnTakes 320 normalised &&
        (some (request.reasonFor principal)).all rt.storesText) = false := Bool.eq_false_iff.mpr bad
    have run : (createSuppression rt noRace now principal request).exec (.begin db) =
        (.error .dataError, .begin db) := by
      unfold createSuppression
      rw [Tx.exec_bind_ok (Tx.exec_attempt _ _), addSuppression_refused h free unfit]
      rfl
    exact sessionScope_error run

end Create

/-! Two projects. -/

/-- The store with another list. -/
def Database.withSuppressions (db : Database) (list : Table Suppression.address) : Database :=
  { db with suppressions := list }

/-- The entry is attributed to another project. -/
def Elsewhere (projectId : Nat) (row : Suppression) : Prop :=
  ∃ id, row.projectId = some id ∧ id ≠ projectId

/-- The lists differ only in entries that are attributed to other projects. -/
def DifferElsewhere (projectId : Nat) (list list' : Table Suppression.address) : Prop :=
  ∀ row, ¬ Elsewhere projectId row → (row ∈ list ↔ row ∈ list')

section TwoStores
variable {ι : Type} [LinearOrder ι] {rt : Runtime} {now : Time} {principal : Principal}
  {request : AddSuppressionRequest} {db after : Database} {list list' : Table Suppression.address}
  {normalised : String} {view : SuppressionView}

theorem DifferElsewhere.find?_eq (same : DifferElsewhere principal.projectId list list')
    (agree : ∀ row, row.address = normalised → Elsewhere principal.projectId row →
      (row ∈ list ↔ row ∈ list')) : list.find? normalised = list'.find? normalised := by
  have entries : ∀ row, list.find? normalised = some row ↔ list'.find? normalised = some row := by
    intro row
    rw [Table.find?_eq_some, Table.find?_eq_some]
    refine and_congr_left fun named => ?_
    by_cases other : Elsewhere principal.projectId row
    · exact agree row named other
    · exact same row other
  exact Option.ext entries

/-- The answer depends on the entry of the address alone. -/
theorem createSuppression_congr (entry : ∀ n, normaliseAddress rt request.address = .ok n →
      list.find? n = list'.find? n) :
    (sessionScope (createSuppression rt noRace now principal request)
        (db.withSuppressions list)).1 =
      (sessionScope (createSuppression rt noRace now principal request)
        (db.withSuppressions list')).1 := by
  cases h : normaliseAddress rt request.address with
  | error e =>
      obtain ⟨e', refused⟩ := createSuppression_invalid now principal h
      rw [refused, refused]
  | ok n =>
      cases found : list.find? n with
      | some row =>
          rw [createSuppression_existing now principal (db.withSuppressions list) h found,
            createSuppression_existing now principal (db.withSuppressions list') h
              (entry n h ▸ found)]
      | none =>
          rw [createSuppression_new now principal (db.withSuppressions list) h found,
            createSuppression_new now principal (db.withSuppressions list') h (entry n h ▸ found)]
          split <;> rfl

/-- An entry that is attributed otherwise stays as it is, and hides the address from the
project that adds it again. -/
theorem createSuppression_shows (slot : String ↪ ι)
    (h : normaliseAddress rt request.address = .ok normalised)
    (ran : sessionScope (createSuppression rt noRace now principal request)
      (db.withSuppressions list) = (.ok view, after)) :
    (Shows slot after principal normalised ↔
      ∀ row ∈ list, row.address = normalised → row.projectId = some principal.projectId) ∧
    ((∃ row ∈ list, row.address = normalised ∧ row.projectId ≠ some principal.projectId) →
      after = db.withSuppressions list) := by
  rw [shows_iff]
  cases found : list.find? normalised with
  | some row =>
      rw [createSuppression_existing now principal (db.withSuppressions list) h found] at ran
      obtain ⟨mem, named⟩ := Table.find?_eq_some.mp found
      obtain rfl := (Prod.mk.inj ran).2
      refine ⟨⟨?_, fun own => ⟨row, mem, own row mem named, named⟩⟩, fun _ => rfl⟩
      rintro ⟨other, there, own, same⟩ row' mem' named'
      rwa [Table.eq_of_key_eq mem' there (named'.trans same.symm)]
  | none =>
      have absent := Table.find?_eq_none.mp found
      rw [createSuppression_new now principal (db.withSuppressions list) h found] at ran
      split at ran
      · obtain rfl := (Prod.mk.inj ran).2
        refine ⟨iff_of_true ?_ fun row mem named => absurd named (absent row mem), ?_⟩
        · exact ⟨request.row principal now normalised,
            (Table.mem_insert_iff list _ found _).mpr (.inr rfl), rfl, rfl⟩
        · rintro ⟨row, mem, named, _⟩
          exact absurd named (absent row mem)
      · cases ran

end TwoStores

section Scoping
variable {ι : Type} [LinearOrder ι] (slot : String ↪ ι) (rt : Runtime) (now : Time)
  (principal : Principal) (request : AddSuppressionRequest) (db : Database)
  {list list' : Table Suppression.address}

/-- Of two stores that differ in the entries of other projects, but not in one for the
address itself, a request that adds it learns nothing. The project sees what it has added
unless the entry was there for somebody else; then nothing changes. -/
theorem createSuppression_scoped (same : DifferElsewhere principal.projectId list list') :
    ((∀ row, normaliseAddress rt request.address = .ok row.address →
        Elsewhere principal.projectId row → (row ∈ list ↔ row ∈ list')) →
      (sessionScope (createSuppression rt noRace now principal request)
          (db.withSuppressions list)).1 =
        (sessionScope (createSuppression rt noRace now principal request)
          (db.withSuppressions list')).1) ∧
    ∀ l, l = list ∨ l = list' → ∀ normalised view after,
      normaliseAddress rt request.address = .ok normalised →
      sessionScope (createSuppression rt noRace now principal request) (db.withSuppressions l) =
        (.ok view, after) →
      (Shows slot after principal normalised ↔
        ∀ row ∈ l, row.address = normalised → row.projectId = some principal.projectId) ∧
      ((∃ row ∈ l, row.address = normalised ∧ row.projectId ≠ some principal.projectId) →
        after = db.withSuppressions l) := by
  refine ⟨fun agree => createSuppression_congr fun n h => same.find?_eq ?_, ?_⟩
  · rintro row rfl other
    exact agree row h other
  · intro l _ normalised view after h ran
    exact createSuppression_shows slot h ran

end Scoping

namespace Sample

def annAgain : AddSuppressionRequest := { address := "ann@example.net" }

def blogEntry (address : String) : Suppression :=
  { address := address, source := .bounce, reason := some "mailbox unavailable"
    projectId := some 2, createdAt := 0 }

def blogEntries (address : String) : Table Suppression.address :=
  Table.empty.insert (blogEntry address) rfl

theorem eq_of_mem_blogEntries {address : String} {row : Suppression}
    (mem : row ∈ blogEntries address) : row = blogEntry address :=
  (Table.mem_insert.mp mem).resolve_left (Table.not_mem_empty row)

theorem blogEntries_elsewhere (address : String) :
    DifferElsewhere (principal mailbox).projectId Table.empty (blogEntries address) := by
  intro row own
  refine iff_of_false (Table.not_mem_empty row) fun mem => own ⟨2, ?_, by decide⟩
  rw [eq_of_mem_blogEntries mem]
  rfl

end Sample

open Sample

/-- An address that another project has on its list elsewhere is added for this one. -/
theorem createSuppression_scoped_ann :
    (sessionScope (createSuppression runtime noRace 5 (principal mailbox) annAgain)
        ((store mailbox).withSuppressions Table.empty)).1 =
      (sessionScope (createSuppression runtime noRace 5 (principal mailbox) annAgain)
        ((store mailbox).withSuppressions (blogEntries "bea@example.net"))).1 ∧
    ∃ view after, sessionScope (createSuppression runtime noRace 5 (principal mailbox) annAgain)
        ((store mailbox).withSuppressions (blogEntries "bea@example.net")) = (.ok view, after) ∧
      Shows (.refl String) after (principal mailbox) "ann@example.net" := by
  have both := createSuppression_scoped (.refl String) runtime 5 (principal mailbox) annAgain
    (store mailbox) (blogEntries_elsewhere "bea@example.net")
  have normal : normaliseAddress runtime annAgain.address = .ok "ann@example.net" := by decide
  refine ⟨both.1 fun row named _ => iff_of_false (Table.not_mem_empty row) fun mem => ?_, ?_⟩
  · rw [normal, eq_of_mem_blogEntries mem] at named
    exact absurd (Except.ok.inj named) (by decide)
  · have ran := createSuppression_new 5 (principal mailbox)
      ((store mailbox).withSuppressions (blogEntries "bea@example.net")) normal (by decide)
    rw [if_pos (by decide)] at ran
    refine ⟨_, _, ran, ((both.2 _ (.inr rfl) _ _ _ normal ran).1).mpr fun row mem named => ?_⟩
    rw [eq_of_mem_blogEntries mem] at named
    exact absurd named (by decide)

/-- Adding an address that another project has on its list shows its entry to this one, and
leaves it out of the listing of this one. -/
theorem other_entry_is_disclosed :
    DifferElsewhere (principal mailbox).projectId Table.empty (blogEntries "ann@example.net") ∧
    (sessionScope (createSuppression runtime noRace 5 (principal mailbox) annAgain)
        ((store mailbox).withSuppressions Table.empty)).1 ≠
      (sessionScope (createSuppression runtime noRace 5 (principal mailbox) annAgain)
        ((store mailbox).withSuppressions (blogEntries "ann@example.net"))).1 ∧
    ¬ Shows (.refl String)
      (sessionScope (createSuppression runtime noRace 5 (principal mailbox) annAgain)
        ((store mailbox).withSuppressions (blogEntries "ann@example.net"))).2 (principal mailbox)
      "ann@example.net" := by
  have normal : normaliseAddress runtime annAgain.address = .ok "ann@example.net" := by decide
  have there := @createSuppression_existing runtime 5 (principal mailbox) annAgain
    ((store mailbox).withSuppressions (blogEntries "ann@example.net")) _ normal
    (blogEntry "ann@example.net") (by decide)
  have free := createSuppression_new 5 (principal mailbox)
    ((store mailbox).withSuppressions Table.empty) normal rfl
  rw [if_pos (by decide)] at free
  rw [there, free]
  refine ⟨blogEntries_elsewhere _, fun same => ?_, ?_⟩
  · exact absurd (congrArg SuppressionView.source (Except.ok.inj same)) (by decide)
  · rw [shows_iff]
    rintro ⟨row, mem, own, _⟩
    rw [eq_of_mem_blogEntries mem] at own
    exact absurd own (by decide)

end Emaild
