import Emaild.Domains.Sweeps

/-!
The administrator's verification of the tracked domains. All of them are refreshed in
one session: what is assigned to a domain is flushed with the first query for the next
one, and none of it is committed before the last domain is through.
-/
namespace Emaild
open Relational Text

def CheckResult.mark : CheckResult → String
  | pass => "ok  "
  | fail => "FAIL"
  | missing => "MISS"
  | error => "ERR "

def RecordCheck.line (key : String) (check : RecordCheck) : String :=
  let detail := check.detail.getD ""
  s!"    [{check.result.mark}] {key}" ++ if detail = "" then "" else s!"  ({detail})"

namespace DomainRefresh
variable (r : DomainRefresh)

def arrow : String :=
  if r.changed then s!"{r.previous.value} -> {r.current.value}" else r.current.value

/-- What is printed of a refresh. -/
def lines (name : String) : List String :=
  let note := r.note.getD ""
  s!"\n{name}: {r.arrow}" :: (if note = "" then [] else [s!"  {note}"]) ++
    match r.report with
    | none => []
    | some report => report.checks.rows.map fun c => c.2.line c.1

/-- There is no report, or one that sending does not go with. -/
def failed : Bool := !r.report.any DomainDnsReport.canSend

end DomainRefresh

/-- What a verification finds out, as far as it is compared. -/
def Domain.findings (d : Domain) : DomainStatus × Option DnsState × Option String :=
  (d.status, d.dnsState, d.smtpHost)

/-- What a run of the command is made with. -/
structure VerifyRun (σ : Type) where
  client : Mxroute.Client σ
  rt : Runtime
  resolver : Resolver
  checkedAt : String → Time
  print : String → σ → σ

namespace VerifyRun
variable {σ : Type} (run : VerifyRun σ)

def printAll (lines : List String) : Tx (World σ) Raised PUnit :=
  World.call fun far => (.ok ⟨⟩, lines.foldl (fun far line => run.print line far) far)

section Command
variable (others : String → Nat → Database → Database)

/-- The loop over the names that are left. -/
def verifyEach : List String → Unflushed → Nat → Tx (World σ) Raised Nat
  | [], unflushed, worst => do
      World.flush (unflushed.flush run.rt)
      return worst
  | name :: names, unflushed, worst => do
      -- the query for the domain flushes what the one before has been assigned
      World.flush (unflushed.flush run.rt)
      let (result, unflushed) ← refreshDomain run.client run.rt run.resolver name
        (run.checkedAt name) (others name)
      let refresh ← Tx.lift result
      run.printAll (refresh.lines name)
      World.meanwhile (others name 1)
      verifyEach names unflushed (if refresh.failed then exitFailed else worst)

def verifyTargets (targets : List String) : Tx (World σ) Raised Nat :=
  if targets.isEmpty then do
    run.printAll ["No domains tracked."]
    return exitOk
  else run.verifyEach others targets .nothing exitOk

/-- `cmd_domains_verify`. The domains come in the order of the table. -/
def cmdDomainsVerify (domain : Option String) : Tx (World σ) Raised Nat := do
  let name := domain.getD ""
  let db ← World.database
  run.verifyTargets others (if name = "" then db.domains.rows.map Domain.name else [name])

end Command

/-! A verification with nobody else at work. -/

def undisturbed : String → Nat → Database → Database := fun _ _ db => db

/-- All tracked domains are verified. -/
def together (w : World σ) : World σ :=
  (sessionScope (run.cmdDomainsVerify undisturbed none) w).2

/-- One domain is verified. -/
def alone (name : String) (w : World σ) : World σ :=
  (sessionScope (run.verifyTargets undisturbed [name]) w).2

/-- The refresh of a domain ends without an exception. -/
def Refreshes (w : World σ) (name : String) : Prop :=
  ∃ refresh unflushed, ((refreshDomain run.client run.rt run.resolver name
    (run.checkedAt name) (undisturbed name)).exec (.begin w)).1 = .ok (.ok refresh, unflushed)

/-- Each domain whose refresh raises nothing is left as it would be by a verification of its
own. -/
def EachAsAlone (w : World σ) : Prop :=
  ∀ d ∈ w.db.domains, run.Refreshes w d.name →
    ((run.together w).db.domains.find? d.id).map Domain.findings =
      ((run.alone d.name w).db.domains.find? d.id).map Domain.findings

/-! The refresh of a domain in the loop. -/

/-- How a refresh ends with nobody else at work: it has raised something, the provider cannot
be reached, or the domain has been assigned what is found. -/
inductive RefreshEnds (answer : Except Raised Json) (db : Database) (name : String) :
    Except Raised (Except Raised DomainRefresh × Unflushed) → Prop
  | raised {result : Except Raised (Except Raised DomainRefresh × Unflushed)}
      (fails : ∀ refresh unflushed, result ≠ .ok (.ok refresh, unflushed))
      (reachable : ∀ d e, db.domainsNamed name = [d] → answer ≠ .error (.provider e))
      (nothing : ∀ d dnsInfo new, db.domainsNamed name = [d] → answer = .ok dnsInfo →
        assess run.client run.rt run.resolver name (run.checkedAt name) d dnsInfo
          (db.hasMailbox d.id) ≠ .ok new) :
      RefreshEnds answer db name result
  | unreachable {d : Domain} {e : MxrouteError} {refresh : DomainRefresh}
      (tracked : db.domainsNamed name = [d]) (answered : answer = .error (.provider e)) :
      RefreshEnds answer db name (.ok (.ok refresh, .nothing))
  | found {d : Domain} {dnsInfo : Json} {refresh : DomainRefresh} {changes : DomainChanges}
      (tracked : db.domainsNamed name = [d]) (answered : answer = .ok dnsInfo)
      (loaded : changes.loaded = d)
      (assessed : assess run.client run.rt run.resolver name (run.checkedAt name) d dnsInfo
        (db.hasMailbox d.id) = changes.bound run.rt) :
      RefreshEnds answer db name (.ok (.ok refresh, .all changes))

/-- The databases of two sessions are the same. -/
def SameStore (s s' : Session (World σ)) : Prop :=
  s'.committed.db = s.committed.db ∧ s'.working.db = s.working.db

/-- A query for a name that brings no single row. -/
theorem refreshEnds_of_untracked {answer : Except Raised Json} {db : Database} {name : String}
    {e : Raised} (untracked : ∀ d, db.domainsNamed name ≠ [d]) :
    run.RefreshEnds answer db name (.error e) := by
  refine .raised (fun _ _ other => ?_) (fun d _ tracked => absurd tracked (untracked d))
    fun d _ _ tracked => absurd tracked (untracked d)
  cases other

/-- Once the provider has answered, a domain is assigned what is found, or something raises. -/
theorem refreshEnds_of_answer {db : Database} {name : String} {d : Domain} {dnsInfo : Json}
    {result : Except Raised (Except Raised DomainRefresh × Unflushed)}
    (tracked : db.domainsNamed name = [d])
    (ends : (∃ refresh changes, result = .ok (.ok refresh, .all changes) ∧ changes.loaded = d ∧
        assess run.client run.rt run.resolver name (run.checkedAt name) d dnsInfo
          (db.hasMailbox d.id) = changes.bound run.rt) ∨
      (∀ refresh unflushed, result ≠ .ok (.ok refresh, unflushed)) ∧
        ∀ new, assess run.client run.rt run.resolver name (run.checkedAt name) d dnsInfo
          (db.hasMailbox d.id) ≠ .ok new) :
    run.RefreshEnds (.ok dnsInfo) db name result := by
  rcases ends with ⟨refresh, changes, rfl, loaded, assessed⟩ | ⟨fails, nothing⟩
  · exact .found tracked rfl loaded assessed
  · refine .raised fails (fun _ _ _ other => ?_) fun d' dnsInfo' new tracked' answered => ?_
    · cases other
    · cases tracked.symm.trans tracked'
      cases answered
      exact nothing new

/-- A refresh writes nothing itself. -/
theorem refreshDomain_ends (name : String) (s : Session (World σ)) :
    run.RefreshEnds (run.client.getDns name s.working.far).1 s.working.db name
        ((refreshDomain run.client run.rt run.resolver name (run.checkedAt name)
          (undisturbed name)).exec s).1 ∧
      SameStore s ((refreshDomain run.client run.rt run.resolver name (run.checkedAt name)
        (undisturbed name)).exec s).2 := by
  simp only [refreshDomain, Tx.exec_bind, World.exec_database, Tx.exec_lift]
  cases looked : scalarOneOrNone (s.working.db.domainsNamed name) with
  | error e =>
      refine ⟨run.refreshEnds_of_untracked fun d tracked => ?_, rfl, rfl⟩
      rw [tracked] at looked
      cases looked
  | ok found =>
      cases found with
      | none =>
          refine ⟨run.refreshEnds_of_untracked fun d tracked => ?_, rfl, rfl⟩
          rw [tracked] at looked
          cases looked
      | some d =>
          have tracked := scalarOneOrNone_some.mp looked
          simp only [Tx.exec_bind, World.exec_attempt]
          cases answered : (run.client.getDns name s.working.far).1 with
          | error e =>
              cases e with
              | provider e => exact ⟨.unreachable tracked rfl, rfl, rfl⟩
              | _ =>
                  refine ⟨.raised (fun _ _ other => ?_) (fun _ _ _ other => ?_)
                    fun _ _ _ _ other => ?_, rfl, rfl⟩
                  all_goals cases other
          | ok dnsInfo =>
              simp only [Tx.exec_bind, Tx.exec_lift]
              cases verified : verifyDomain run.rt name dnsInfo run.resolver with
              | error e =>
                  refine ⟨run.refreshEnds_of_answer tracked (.inr ⟨fun _ _ other => ?_,
                    fun new assessed => ?_⟩), rfl, rfl⟩
                  · cases other
                  · simp [assess, verified, bind, Except.bind] at assessed
              | ok report =>
                  simp only [World.exec_meanwhile, World.exec_database, undisturbed]
                  cases changed : domainChanges run.client name d dnsInfo report
                      (nextStatus d.status report (s.working.db.hasMailbox d.id)).1
                      (run.checkedAt name) with
                  | error e =>
                      refine ⟨run.refreshEnds_of_answer tracked (.inr ⟨fun _ _ other => ?_,
                        fun new assessed => ?_⟩), rfl, rfl⟩
                      · cases other
                      · simp [assess, verified, changed, bind, Except.bind] at assessed
                  | ok changes =>
                      refine ⟨run.refreshEnds_of_answer tracked (.inl ⟨_, changes, rfl,
                        domainChanges_loaded run.client changed, ?_⟩), rfl, rfl⟩
                      simp [assess, verified, changed, bind, Except.bind]

/-! The loop with steady answers. -/

section Steady
variable (answers : String → Except Raised Json) (base : Database)

/-- The provider's answer about a domain is the same, whenever it is asked. -/
def Steady : Prop := ∀ name far, (run.client.getDns name far).1 = answers name

/-- The domain is the only one of its name, and its verification raises nothing: the provider
cannot be reached, or what it answers can be checked and written. -/
def Verifiable (d : Domain) : Prop :=
  base.domainsNamed d.name = [d] ∧
    match answers d.name with
    | .ok dnsInfo => ∃ report, verifyDomain run.rt d.name dnsInfo run.resolver = .ok report ∧
        ColumnsTake run.rt run.client.str d.name dnsInfo report
    | .error (.provider _) => True
    | .error _ => False

/-- What the verification of a domain makes of the table. -/
def settle (db : Database) (d : Domain) : Database :=
  match answers d.name with
  | .ok dnsInfo =>
      match assess run.client run.rt run.resolver d.name (run.checkedAt d.name) d dnsInfo
          (base.hasMailbox d.id) with
      | .ok new => db.mergeDomain d new
      | .error _ => db
  | .error _ => db

/-- The table holds what the refresh of the domain is going to read. -/
def Reads (db : Database) (name : String) : Prop :=
  db.domainsNamed name = base.domainsNamed name ∧ db.mailboxes = base.mailboxes

variable {run answers base}

theorem RefreshEnds.of_reads {db : Database} {name : String} {answer : Except Raised Json}
    {result : Except Raised (Except Raised DomainRefresh × Unflushed)} (reads : Reads base db name)
    (ends : run.RefreshEnds answer db name result) : run.RefreshEnds answer base name result := by
  have mailboxes (id : Nat) : db.hasMailbox id = base.hasMailbox id := by
    simp [Database.hasMailbox, reads.2]
  cases ends with
  | raised fails reachable nothing =>
      simp only [reads.1, mailboxes] at reachable nothing
      exact .raised fails reachable nothing
  | unreachable tracked answered => exact .unreachable (reads.1 ▸ tracked) answered
  | found tracked answered loaded assessed =>
      exact .found (reads.1 ▸ tracked) answered loaded (mailboxes _ ▸ assessed)

theorem domainsNamed_mergeDomain {db : Database} {d new : Domain} (mem : d ∈ db.domains)
    {name : String} (other : d.name ≠ name) :
    (db.mergeDomain d new).domainsNamed name = db.domainsNamed name := by
  refine Table.filter_modify db.domains d.id (d.merge new) (fun _ => rfl) fun row listed same => ?_
  cases Table.eq_of_key_eq listed mem same
  have unnamed : Domain.named name d = false := decide_eq_false other
  exact ⟨unnamed, unnamed⟩

theorem reads_settle {db : Database} {d d' : Domain} (mem : d ∈ db.domains)
    (other : d.name ≠ d'.name) (reads : Reads base db d'.name) :
    Reads base (run.settle answers base db d) d'.name := by
  unfold settle
  split
  · split
    · exact ⟨(domainsNamed_mergeDomain mem other).trans reads.1, reads.2⟩
    · exact reads
  · exact reads

theorem verifyEach_flush_error {names : List String} {unflushed : Unflushed} {worst : Nat}
    {s : Session (World σ)} {e : Raised}
    (refused : unflushed.flush run.rt s.working.db = .error e) :
    (run.verifyEach undisturbed names unflushed worst).exec s =
      (.error e, ⟨s.committed, s.committed, true⟩) := by
  cases names with
  | nil => simp only [verifyEach, Tx.exec_bind, World.exec_flush, refused]
  | cons name names => simp only [verifyEach, Tx.exec_bind, World.exec_flush, refused]

/-- A refresh that fails is that of a domain whose verification raises something. -/
theorem not_verifiable {d : Domain}
    {result : Except Raised (Except Raised DomainRefresh × Unflushed)}
    (ends : run.RefreshEnds (answers d.name) base d.name result)
    (fails : ∀ refresh unflushed, result ≠ .ok (.ok refresh, unflushed)) :
    ¬ run.Verifiable answers base d := by
  rintro ⟨tracked, verifiable⟩
  cases ends with
  | raised _ reachable nothing =>
      split at verifiable
      · rename_i dnsInfo answered
        obtain ⟨new, assessed⟩ := (assess_ok run.client run.rt (run.checkedAt d.name) d
          (base.hasMailbox d.id)).mpr verifiable
        exact nothing d dnsInfo new tracked answered assessed
      · rename_i e answered
        exact reachable d e tracked answered
      · exact verifiable
  | unreachable => exact fails _ _ rfl
  | found => exact fails _ _ rfl

/-- A refresh that raises nothing leaves the verification of its domain to be flushed, or what
the database refuses. -/
theorem flush_of_refresh {d : Domain} {refresh : DomainRefresh} {unflushed : Unflushed}
    (ends : run.RefreshEnds (answers d.name) base d.name (.ok (.ok refresh, unflushed)))
    (listed : d ∈ base.domains) (db : Database) :
    (run.Verifiable answers base d ∧
        unflushed.flush run.rt db = .ok (run.settle answers base db d)) ∨
      ¬ run.Verifiable answers base d ∧ ∃ e, unflushed.flush run.rt db = .error e := by
  have only {d' : Domain} (tracked : base.domainsNamed d.name = [d']) : d' = d := by
    have named : d ∈ base.domainsNamed d.name :=
      List.mem_filter.mpr ⟨listed, decide_eq_true rfl⟩
    rw [tracked] at named
    exact (List.mem_singleton.mp named).symm
  cases ends with
  | raised fails => exact absurd rfl (fails _ _)
  | unreachable tracked answered =>
      cases only tracked
      refine .inl ⟨⟨tracked, ?_⟩, ?_⟩
      · rw [answered]
        trivial
      · simp only [Unflushed.flush, settle, answered]
        rfl
  | @found d' dnsInfo _ changes tracked answered loaded assessed =>
      cases only tracked
      subst loaded
      cases bound : changes.bound run.rt with
      | ok new =>
          rw [bound] at assessed
          refine .inl ⟨⟨tracked, ?_⟩, ?_⟩
          · rw [answered]
            exact (assess_ok _ _ _ _ _).mp ⟨new, assessed⟩
          · simp only [Unflushed.flush, settle, answered, assessed, bound]
            rfl
      | error e =>
          refine .inr ⟨fun verifiable => ?_, e, ?_⟩
          · have writes := verifiable.2
            rw [answered] at writes
            obtain ⟨new, written⟩ :=
              (assess_ok run.client run.rt (run.checkedAt changes.loaded.name)
              changes.loaded (base.hasMailbox changes.loaded.id)).mpr writes
            rw [assessed, bound] at written
            cases written
          · simp only [Unflushed.flush, bound]
            rfl

variable (run answers base) in
/-- How the loop ends: all of the domains are settled, or one of them raises something and
nothing is committed. -/
def LoopEnds (ds : List Domain) (db : Database) (s : Session (World σ))
    (result : Except Raised Nat × Session (World σ)) : Prop :=
  ((∀ d ∈ ds, run.Verifiable answers base d) ∧ (∃ code, result.1 = .ok code) ∧
      result.2.working.db = ds.foldl (run.settle answers base) db) ∨
    (∃ d ∈ ds, ¬ run.Verifiable answers base d) ∧ (∃ e, result.1 = .error e) ∧
      result.2.committed.db = s.committed.db

theorem LoopEnds.settled {d : Domain} {ds : List Domain} {db : Database} {s s' : Session (World σ)}
    {result : Except Raised Nat × Session (World σ)} (verifiable : run.Verifiable answers base d)
    (kept : s'.committed.db = s.committed.db)
    (rest : run.LoopEnds answers base ds (run.settle answers base db d) s' result) :
    run.LoopEnds answers base (d :: ds) db s result := by
  rcases rest with ⟨all, code, settled⟩ | ⟨⟨d', mem, unverifiable⟩, raised, same⟩
  · exact .inl ⟨List.forall_mem_cons.mpr ⟨verifiable, all⟩, code, settled⟩
  · exact .inr ⟨⟨d', List.mem_cons_of_mem d mem, unverifiable⟩, raised, same.trans kept⟩

theorem LoopEnds.refused {d : Domain} {ds : List Domain} {db : Database}
    {s s' : Session (World σ)} {names : List String} {unflushed : Unflushed} {worst : Nat}
    {e : Raised} (unverifiable : ¬ run.Verifiable answers base d)
    (kept : s'.committed.db = s.committed.db)
    (refused : unflushed.flush run.rt s'.working.db = .error e) :
    run.LoopEnds answers base (d :: ds) db s
      ((run.verifyEach undisturbed names unflushed worst).exec s') := by
  rw [verifyEach_flush_error refused]
  exact .inr ⟨⟨d, List.mem_cons_self, unverifiable⟩, ⟨e, rfl⟩, kept⟩

theorem mem_of_reads {db : Database} {d : Domain} (reads : Reads base db d.name)
    (verifiable : run.Verifiable answers base d) : d ∈ db.domains := by
  have named : d ∈ db.domainsNamed d.name := by
    rw [reads.1, verifiable.1]
    exact List.mem_singleton_self d
  exact (List.mem_filter.mp named).1

theorem name_ne {d d' : Domain} (verifiable : run.Verifiable answers base d)
    (listed : d' ∈ base.domains) (other : d' ≠ d) : d.name ≠ d'.name := by
  intro same
  have named : d' ∈ base.domainsNamed d.name :=
    List.mem_filter.mpr ⟨listed, decide_eq_true same.symm⟩
  rw [verifiable.1] at named
  exact other (List.mem_singleton.mp named)

theorem verifyEach_ends (steady : run.Steady answers) {ds : List Domain} {s : Session (World σ)}
    {unflushed : Unflushed} {db : Database} (flushed : unflushed.flush run.rt s.working.db = .ok db)
    (reads : ∀ d ∈ ds, d ∈ base.domains ∧ Reads base db d.name) (distinct : ds.Nodup)
    (worst : Nat) :
    run.LoopEnds answers base ds db s
      ((run.verifyEach undisturbed (ds.map Domain.name) unflushed worst).exec s) := by
  induction ds generalizing s unflushed db worst with
  | nil =>
      simp only [List.map_nil, verifyEach, Tx.exec_bind, World.exec_flush, flushed]
      exact .inl ⟨by simp, ⟨worst, rfl⟩, rfl⟩
  | cons d ds ih =>
      obtain ⟨⟨listed, readable⟩, later⟩ := List.forall_mem_cons.mp reads
      obtain ⟨fresh, distinct⟩ := List.nodup_cons.mp distinct
      simp only [List.map_cons, verifyEach, Tx.exec_bind, World.exec_flush, flushed]
      obtain ⟨ends, kept⟩ := run.refreshDomain_ends d.name { s with working.db := db }
      generalize (refreshDomain run.client run.rt run.resolver d.name (run.checkedAt d.name)
        (undisturbed d.name)).exec { s with working.db := db } = refreshed at ends kept ⊢
      obtain ⟨result, s'⟩ := refreshed
      rw [steady] at ends
      replace ends := ends.of_reads readable
      match result, ends with
      | .error e, ends =>
          exact .inr ⟨⟨d, List.mem_cons_self, not_verifiable ends fun _ _ other => by cases other⟩,
            ⟨e, rfl⟩, kept.1⟩
      | .ok (.error e, u), ends =>
          exact .inr ⟨⟨d, List.mem_cons_self, not_verifiable ends fun _ _ other => by cases other⟩,
            ⟨e, rfl⟩, kept.1⟩
      | .ok (.ok refresh, u), ends =>
          simp only [Tx.exec_lift, printAll, World.exec_call, World.exec_meanwhile, undisturbed]
          have unchanged : s'.working.db = db := kept.2
          rcases flush_of_refresh ends listed db with ⟨verifiable, flushed⟩ |
            ⟨unverifiable, e, refused⟩
          · refine .settled verifiable kept.1 (ih ?_ (fun d' mem => ?_) distinct _)
            · exact unchanged ▸ flushed
            · have other := name_ne verifiable (later d' mem).1 (ne_of_mem_of_not_mem mem fresh)
              exact ⟨(later d' mem).1,
                reads_settle (mem_of_reads readable verifiable) other (later d' mem).2⟩
          · exact .refused unverifiable kept.1 (unchanged ▸ refused)

/-! Together and alone. -/

theorem sessionScope_db {x : Tx (World σ) Raised Nat} {w : World σ} {ds : List Domain}
    (ends : run.LoopEnds answers w.db ds w.db (.begin w) (x.exec (.begin w))) :
    ((∀ d ∈ ds, run.Verifiable answers w.db d) ∧
        (sessionScope x w).2.db = ds.foldl (run.settle answers w.db) w.db) ∨
      (∃ d ∈ ds, ¬ run.Verifiable answers w.db d) ∧ (sessionScope x w).2.db = w.db := by
  rcases ends with ⟨all, ⟨code, ok⟩, settled⟩ | ⟨stopped, ⟨e, raised⟩, kept⟩
  · rw [sessionScope_ok (Prod.ext ok rfl)]
    exact .inl ⟨all, settled⟩
  · rw [sessionScope_error (Prod.ext raised rfl)]
    exact .inr ⟨stopped, kept⟩

theorem verifyTargets_ends (steady : run.Steady answers) (w : World σ) {ds : List Domain}
    (listed : ∀ d ∈ ds, d ∈ w.db.domains) (distinct : ds.Nodup) :
    run.LoopEnds answers w.db ds w.db (.begin w)
      ((run.verifyTargets undisturbed (ds.map Domain.name)).exec (.begin w)) := by
  unfold verifyTargets
  cases ds with
  | nil => exact .inl ⟨by simp, ⟨exitOk, rfl⟩, rfl⟩
  | cons d ds =>
      exact verifyEach_ends steady rfl (fun d' mem => ⟨listed d' mem, rfl, rfl⟩) distinct _

theorem together_db (steady : run.Steady answers) (w : World σ) :
    ((∀ d ∈ w.db.domains, run.Verifiable answers w.db d) ∧
        (run.together w).db = w.db.domains.rows.foldl (run.settle answers w.db) w.db) ∨
      (∃ d ∈ w.db.domains, ¬ run.Verifiable answers w.db d) ∧ (run.together w).db = w.db :=
  sessionScope_db (verifyTargets_ends steady w (fun _ mem => mem)
    (List.Nodup.of_map Domain.id w.db.domains.nodup))

theorem alone_db (steady : run.Steady answers) (w : World σ) {d : Domain}
    (listed : d ∈ w.db.domains) :
    (run.Verifiable answers w.db d ∧ (run.alone d.name w).db = run.settle answers w.db w.db d) ∨
      ¬ run.Verifiable answers w.db d ∧ (run.alone d.name w).db = w.db := by
  have ends := sessionScope_db (verifyTargets_ends steady w (List.forall_mem_singleton.mpr listed)
    (List.nodup_singleton d))
  unfold alone
  simpa using ends

/-! What is found out. -/

theorem findings_merge (d new : Domain) : (d.merge new d).findings = new.findings := by
  have column {α : Type} [DecidableEq α] (loaded new : α) : written loaded new loaded = new := by
    unfold written
    split
    · exact Eq.symm ‹_›
    · rfl
  simp [Domain.findings, Domain.merge, column]

variable (run answers base) in
/-- What a verification would find out about the domain is recorded already. -/
def UpToDate (d : Domain) : Prop :=
  ∀ dnsInfo report host, answers d.name = .ok dnsInfo →
    verifyDomain run.rt d.name dnsInfo run.resolver = .ok report → firstHost dnsInfo = .ok host →
      (nextStatus d.status report (base.hasMailbox d.id)).1 = d.status ∧
        some report.toState = d.dnsState ∧ assigned run.rt 253 host d.smtpHost = .ok d.smtpHost

theorem findings_of_bound {changes : DomainChanges} {new : Domain}
    (bound : changes.bound run.rt = .ok new) :
    assigned run.rt 253 changes.smtpHost changes.loaded.smtpHost = .ok new.smtpHost ∧
      new.status = changes.status ∧ new.dnsState = some changes.report.toState := by
  obtain ⟨text, boundHost, bound⟩ := ok_of_bind_ok bound
  obtain ⟨_, _, bound⟩ := ok_of_bind_ok bound
  split at bound
  · cases bound
    exact ⟨boundHost, rfl, rfl⟩
  · cases bound

theorem findings_of_assess {name : String} {now : Time} {d new : Domain} {dnsInfo : Json}
    {hasMailbox : Bool}
    (assessed : assess run.client run.rt run.resolver name now d dnsInfo hasMailbox = .ok new) :
    ∃ report host, verifyDomain run.rt name dnsInfo run.resolver = .ok report ∧
      firstHost dnsInfo = .ok host ∧ assigned run.rt 253 host d.smtpHost = .ok new.smtpHost ∧
        new.status = (nextStatus d.status report hasMailbox).1 ∧
          new.dnsState = some report.toState := by
  obtain ⟨changes, bound, rfl, verified, status, first⟩ := changes_of_assess assessed
  obtain ⟨host, found, state⟩ := findings_of_bound bound
  exact ⟨_, _, verified, first, host, found.trans status, state⟩

/-- A verification changes what is recorded of a domain, unless it is up to date. -/
theorem findings_settle {d : Domain} (listed : d ∈ base.domains) :
    ((run.settle answers base base d).domains.find? d.id).map Domain.findings =
        (base.domains.find? d.id).map Domain.findings ↔
      ∀ dnsInfo new, answers d.name = .ok dnsInfo →
        assess run.client run.rt run.resolver d.name (run.checkedAt d.name) d dnsInfo
          (base.hasMailbox d.id) = .ok new → new.findings = d.findings := by
  have found := Table.find?_of_mem listed
  unfold settle
  cases answered : answers d.name with
  | error e => simp
  | ok dnsInfo =>
      cases assessed : assess run.client run.rt run.resolver d.name (run.checkedAt d.name) d dnsInfo
          (base.hasMailbox d.id) with
      | error e =>
          simp only [assessed, true_iff]
          rintro _ new ⟨⟩ other
          cases assessed.symm.trans other
      | ok new =>
          simp only [assessed, find?_mergeDomain, if_pos, found, Option.map_some, findings_merge,
            Option.some.injEq]
          constructor
          · rintro same _ new' ⟨⟩ other
            cases assessed.symm.trans other
            exact same
          · exact fun same => same dnsInfo new rfl assessed

theorem upToDate_iff {d : Domain} (listed : d ∈ base.domains)
    (verifiable : run.Verifiable answers base d) :
    run.UpToDate answers base d ↔
      ((run.settle answers base base d).domains.find? d.id).map Domain.findings =
        (base.domains.find? d.id).map Domain.findings := by
  rw [findings_settle listed]
  constructor
  · intro current dnsInfo new answered assessed
    obtain ⟨report, host, verified, first, bound, status, state⟩ := findings_of_assess assessed
    obtain ⟨sameStatus, sameState, sameHost⟩ := current dnsInfo report host answered verified first
    rw [bound] at sameHost
    simp [Domain.findings, status, state, sameStatus, sameState, Except.ok.inj sameHost]
  · intro same dnsInfo report host answered verified first
    have writes := verifiable.2
    rw [answered] at writes
    obtain ⟨new, assessed⟩ := (assess_ok run.client run.rt (run.checkedAt d.name) d
      (base.hasMailbox d.id)).mpr writes
    obtain ⟨report', host', verified', first', bound, status, state⟩ := findings_of_assess assessed
    cases verified.symm.trans verified'
    cases first.symm.trans first'
    have unchanged := same dnsInfo new answered assessed
    simp only [Domain.findings, Prod.mk.injEq] at unchanged
    exact ⟨status.symm.trans unchanged.1, state.symm.trans unchanged.2.1, unchanged.2.2 ▸ bound⟩

/-! The rows after the loop. -/

theorem find?_settle_other (db : Database) {d : Domain} {id : Nat} (other : id ≠ d.id) :
    (run.settle answers base db d).domains.find? id = db.domains.find? id := by
  unfold settle
  split
  · split
    · rw [find?_mergeDomain, if_neg other]
    · rfl
  · rfl

theorem find?_settle_self {db db' : Database} {d : Domain}
    (same : db.domains.find? d.id = db'.domains.find? d.id) :
    (run.settle answers base db d).domains.find? d.id =
      (run.settle answers base db' d).domains.find? d.id := by
  unfold settle
  split
  · split
    · rw [find?_mergeDomain, find?_mergeDomain, same]
    · exact same
  · exact same

theorem find?_foldl_other {ds : List Domain} (db : Database) {id : Nat}
    (outside : ∀ d ∈ ds, id ≠ d.id) :
    (ds.foldl (run.settle answers base) db).domains.find? id = db.domains.find? id := by
  induction ds generalizing db with
  | nil => rfl
  | cons d ds ih =>
      obtain ⟨other, others⟩ := List.forall_mem_cons.mp outside
      rw [List.foldl_cons, ih _ others, find?_settle_other db other]

/-- Each domain of the loop is settled once. -/
theorem find?_foldl {ds : List Domain} (distinct : (ds.map Domain.id).Nodup) {d : Domain}
    (mem : d ∈ ds) (db : Database) :
    (ds.foldl (run.settle answers base) db).domains.find? d.id =
      (run.settle answers base db d).domains.find? d.id := by
  induction ds generalizing db with
  | nil => cases mem
  | cons head ds ih =>
      obtain ⟨fresh, distinct⟩ := List.nodup_cons.mp distinct
      rw [List.foldl_cons]
      rcases List.mem_cons.mp mem with rfl | later
      · refine find?_foldl_other _ fun d' mem' same => fresh ?_
        rw [same]
        exact List.mem_map_of_mem mem'
      · have other : d.id ≠ head.id := fun same =>
          fresh (same ▸ List.mem_map_of_mem later)
        rw [ih distinct later]
        exact find?_settle_self (find?_settle_other db other)

theorem refreshes_of_verifiable (steady : run.Steady answers) {w : World σ} {d : Domain}
    (verifiable : run.Verifiable answers w.db d) : run.Refreshes w d.name := by
  by_contra raises
  have ends := (run.refreshDomain_ends d.name (.begin w)).1
  rw [steady] at ends
  exact not_verifiable ends (fun refresh unflushed same => raises ⟨refresh, unflushed, same⟩)
    verifiable

/-- The domains are left as they would be by verifications of their own exactly if no
verification raises anything, or those that raise nothing find out nothing new. -/
theorem eachAsAlone_iff (run : VerifyRun σ) {answers : String → Except Raised Json}
    (steady : run.Steady answers) (w : World σ) :
    run.EachAsAlone w ↔
      (∀ d ∈ w.db.domains, run.Verifiable answers w.db d) ∨
        ∀ d ∈ w.db.domains, run.Verifiable answers w.db d → run.UpToDate answers w.db d := by
  constructor
  · intro asAlone
    rcases together_db steady w with ⟨all, _⟩ | ⟨_, restored⟩
    · exact .inl all
    · refine .inr fun d listed verifiable => ?_
      have same := asAlone d listed (refreshes_of_verifiable steady verifiable)
      rcases alone_db steady w listed with ⟨_, settled⟩ | ⟨unverifiable, _⟩
      · rw [restored, settled] at same
        exact (upToDate_iff listed verifiable).mpr same.symm
      · exact absurd verifiable unverifiable
  · intro holds d listed _
    rcases together_db steady w with ⟨all, settled⟩ | ⟨⟨failing, mem, unverifiable⟩, restored⟩
    · rcases alone_db steady w listed with ⟨_, alone⟩ | ⟨unverifiable, _⟩
      · rw [settled, alone, find?_foldl w.db.domains.nodup listed]
      · exact absurd (all d listed) unverifiable
    · rcases alone_db steady w listed with ⟨verifiable, alone⟩ | ⟨_, alone⟩
      · rcases holds with all | current
        · exact absurd (all failing mem) unverifiable
        · rw [restored, alone]
          exact ((upToDate_iff listed verifiable).mp (current d listed verifiable)).symm
      · rw [restored, alone]

end Steady
end VerifyRun

namespace Sample

/-- A provider that knows an answer for each domain. -/
def answering (data : String → Json) : Mxroute.Client Unit where
  str _ := "10"
  float _ := none
  acquire _ far := far
  pause _ far := far
  send
    | .dns name, _, far =>
        (.ok
          { status := 200, body := .json (.object [("success", .bool true), ("data", data name)]) },
          far)
    | _, _, far => (.ok { status := 404, body := .empty }, far)

/-- None of the records is published. -/
def verifyRun (data : String → Json) : VerifyRun Unit where
  client := answering data
  rt := runtime
  resolver := ⟨fun _ => .absent, fun _ => .absent, fun _ => .absent, fun _ => .absent,
    fun _ => .absent⟩
  checkedAt _ := 0
  print _ far := far

def blogDomain : Domain :=
  { id := 2, name := "blog.example", status := .added, smtpHost := none, dnsState := none }

def twoDomains : World Unit where
  db := { store mailbox with
    domains := (store mailbox).domains.insert blogDomain rfl }
  far := ()

/-- The mail exchangers of one domain come as plain texts. -/
def plainExchangers (name : String) : Json :=
  if name = "blog.example" then .object [("mx_records", .array [.string "mx.example"])]
  else .object []

def answers (data : String → Json) (name : String) : Except Raised Json :=
  ((verifyRun data).client.getDns name ()).1

theorem verifyRun_steady (data : String → Json) : (verifyRun data).Steady (answers data) :=
  fun _ _ => rfl

/-- A payload that asks for nothing can be checked and written. -/
theorem verifiable_of_empty (data : String → Json) {d : Domain}
    (tracked : twoDomains.db.domainsNamed d.name = [d])
    (empty : answers data d.name = .ok (.object [])) :
    (verifyRun data).Verifiable (answers data) twoDomains.db d := by
  refine ⟨tracked, ?_⟩
  have storable : [dmarcRecord].all (DnsRecord.storable runtime) = true := by decide
  rw [empty]
  exact ⟨_, rfl, ⟨none, rfl, by simp⟩, ⟨[dmarcRecord], rfl, storable⟩,
    ⟨.null, rfl, fun named => absurd named (by decide)⟩, rfl⟩

theorem shop_tracked : domain ∈ twoDomains.db.domains :=
  Table.mem_of_find? (by decide : twoDomains.db.domains.find? 1 = some domain)

end Sample

theorem empty_answers_are_settled :
    (Sample.verifyRun fun _ => .object []).EachAsAlone Sample.twoDomains := by
  refine ((Sample.verifyRun fun _ => .object []).eachAsAlone_iff
    (Sample.verifyRun_steady fun _ => .object []) Sample.twoDomains).mpr (.inl fun d listed => ?_)
  rcases (Table.mem_insert_iff (Sample.store Sample.mailbox).domains Sample.blogDomain
    (by decide) d).mp listed with shop | rfl
  · cases List.mem_singleton.mp shop
    exact Sample.verifiable_of_empty _ (by decide) rfl
  · exact Sample.verifiable_of_empty _ (by decide) rfl

/-- The exception of one domain takes back what was found out about the other. -/
theorem exception_discards_verification :
    ¬ (Sample.verifyRun Sample.plainExchangers).EachAsAlone Sample.twoDomains := by
  intro asAlone
  have verifiable := Sample.verifiable_of_empty Sample.plainExchangers
    (by decide : Sample.twoDomains.db.domainsNamed Sample.domain.name = [Sample.domain]) rfl
  have same := asAlone Sample.domain Sample.shop_tracked
    (VerifyRun.refreshes_of_verifiable (Sample.verifyRun_steady _) verifiable)
  have together : ((Sample.verifyRun Sample.plainExchangers).together
      Sample.twoDomains).db.domains.find? Sample.domain.id = some Sample.domain := by decide +kernel
  have alone : (((Sample.verifyRun Sample.plainExchangers).alone Sample.domain.name
      Sample.twoDomains).db.domains.find? Sample.domain.id).map (Prod.fst ∘ Domain.findings) =
        some .ownershipPending := by decide +kernel
  have status := congrArg (Option.map Prod.fst) same
  rw [Option.map_map, Option.map_map, together] at status
  cases status.trans alone

end Emaild
