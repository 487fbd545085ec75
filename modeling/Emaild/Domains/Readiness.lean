import Emaild.Domains.Sweeps
import Emaild.Provisioning.Agreement
import Emaild.Transition.History
import Emaild.Worker

/-!
Which domains are ready. Sweeps, provisionings, additions and an operator work on the
same rows, each in a transaction of its own that locks nothing it reads: what it has
loaded may be old by the time it commits.
-/
namespace Emaild
open Relational Text Transition

/-- The operations on domains. The numbers are the ages of what their statements have read,
in commits of others. -/
inductive DomainAction (σ : Type)
  | refresh (sweep : Sweep) (far : σ) (loaded counted : Nat)
  | provision (request : ProvisionRequest) (id : Nat) (draw : PasswordDraw) (far : σ)
      (loaded looked checked : Nat)
  | add (rawName : String) (id : Nat) (far : σ) (loaded : Nat)
  | suspend (domainId : Nat)

section Histories
variable {σ : Type} (c : Mxroute.Client σ) (rt : Runtime) (cipher : MailboxCipher)

/-- What is committed at the end of a session. -/
def settle {α : Type} (h : History Database) : Except Raised α × World σ → History Database
  | (.ok _, w) => h.commit w.db
  | (.error _, _) => h

/-- An operation commits on what is current. -/
def DomainAction.step (h : History Database) : DomainAction σ → Option (History Database)
  | .refresh s far loaded counted =>
      some (settle h (sessionScope (sweepDomain c rt s.resolver s.domainName s.now
        fun n _ => h.meets [counted] n) ⟨h.read loaded, far⟩))
  | .provision request id draw far loaded looked checked =>
      some (settle h (sessionScope (provisionMailbox c rt cipher request id draw
        fun n _ => h.meets [looked, checked] n) ⟨h.read loaded, far⟩))
  | .add rawName id far loaded =>
      some (settle h (sessionScope (addDomain c rt rawName id fun n _ => h.meets [] n)
        ⟨h.read loaded, far⟩))
  | .suspend domainId => some (h.commit (h.current.setDomainStatus domainId .suspended))

/-- What an operation can do to the current store. -/
inductive DomainChange (h : History Database) : DomainAction σ → History Database → Prop
  | idle {a : DomainAction σ} : DomainChange h a h
  | unchanged {a : DomainAction σ} : DomainChange h a (h.commit h.current)
  | refreshed {s : Sweep} {far far' : σ} {loaded counted : Nat} {domain new : Domain}
      {dnsInfo : Json} (mem : domain ∈ (h.read loaded).domains) (named : domain.name = s.domainName)
      (answered : c.getDns s.domainName far = (.ok dnsInfo, far'))
      (assessed : assess c rt s.resolver s.domainName s.now domain dnsInfo
        ((h.read counted).hasMailbox domain.id) = .ok new) :
      DomainChange h (.refresh s far loaded counted) (h.commit (h.current.mergeDomain domain new))
  | provisioned {request : ProvisionRequest} {id : Nat} {draw : PasswordDraw} {far : σ}
      {loaded looked checked : Nat} {address localPart : String} {domain : Domain}
      {mailbox : Mailbox} {db : Database} (mem : domain ∈ (h.read loaded).domains)
      (split : splitAddress rt request.address = .ok (address, localPart, domain.name))
      (houses : mailbox.domainId = domain.id)
      (inserted : h.current.insertMailbox mailbox = .ok db) :
      DomainChange h (.provision request id draw far loaded looked checked)
        (h.commit (db.promote domain))
  | added {rawName name : String} {id : Nat} {far : σ} {loaded : Nat}
      {captured : Option (List DnsRecord × Json)} {db : Database}
      (inserted : h.current.insertDomain rt id name captured = .ok db) :
      DomainChange h (.add rawName id far loaded) (h.commit db)
  | suspended {domainId : Nat} : DomainChange h (.suspend domainId)
      (h.commit (h.current.setDomainStatus domainId .suspended))

theorem mem_of_domainsNamed {db : Database} {name : String} {domain : Domain}
    (h : db.domainsNamed name = [domain]) : domain ∈ db.domains ∧ domain.name = name := by
  have listed : domain ∈ db.domainsNamed name := by simp [h]
  obtain ⟨mem, named⟩ := List.mem_filter.mp listed
  exact ⟨mem, of_decide_eq_true named⟩

theorem provisionableDomain_ok {db : Database} {name : String} {domain : Domain}
    (h : provisionableDomain db name = .ok domain) : domain ∈ db.domains ∧ domain.name = name := by
  obtain ⟨found, rows, h⟩ := ok_of_bind_ok h
  cases found with
  | none => cases h
  | some found =>
      dsimp only at h
      split at h
      · cases h
      · cases h
        exact mem_of_domainsNamed (scalarOneOrNone_some.mp rows)

theorem domainChange_of_step {h h' : History Database} {a : DomainAction σ}
    (step : a.step c rt cipher h = some h') : DomainChange c rt h a h' := by
  cases a with
  | refresh s far loaded counted =>
      obtain rfl := Option.some.inj step
      have ends := sweepDomain_cases c rt s.resolver s.domainName s.now
        (fun n _ => h.meets [counted] n) ⟨h.read loaded, far⟩
      revert ends
      generalize sessionScope _ _ = result
      intro ends
      cases ends with
      | @idle result db far alone commits nothing =>
          cases result with
          | error e => exact .idle
          | ok refresh =>
              obtain rfl := commits rfl
              exact .unchanged
      | written tracked answered assessed =>
          obtain ⟨mem, named⟩ := mem_of_domainsNamed tracked
          exact .refreshed mem named answered assessed
  | provision request id draw far loaded looked checked =>
      obtain rfl := Option.some.inj step
      have ends := provisionMailbox_cases c rt cipher request id draw
        (fun n _ => h.meets [looked, checked] n) ⟨h.read loaded, far⟩
      revert ends
      generalize sessionScope _ _ = result
      intro ends
      cases ends with
      | refused | failed => exact .idle
      | done checked created inserted =>
          obtain ⟨mem, named⟩ := provisionableDomain_ok checked.usable
          exact .provisioned mem (by rw [named]; exact checked.split) rfl inserted
  | add rawName id far loaded =>
      obtain rfl := Option.some.inj step
      have ends := addDomain_cases c rt rawName id (fun n _ => h.meets [] n) ⟨h.read loaded, far⟩
      revert ends
      generalize sessionScope _ _ = result
      intro ends
      cases ends with
      | @idle result db far commits =>
          cases result with
          | error e => exact .idle
          | ok domain =>
              obtain rfl := commits rfl
              exact .unchanged
      | added row inserted => exact .added inserted
  | suspend domainId =>
      obtain rfl := Option.some.inj step
      exact .suspended

/-! What the changes do to the rows. -/

theorem mem_mergeDomain {db : Database} {loaded new d : Domain} :
    d ∈ (db.mergeDomain loaded new).domains ↔
      ∃ row ∈ db.domains, (if row.id = loaded.id then loaded.merge new row else row) = d :=
  Table.mem_modify db.domains loaded.id (loaded.merge new) fun _ => rfl

theorem mem_setDomainStatus {db : Database} {domainId : Nat} {status : DomainStatus} {d : Domain} :
    d ∈ (db.setDomainStatus domainId status).domains ↔
      ∃ row ∈ db.domains, (if row.id = domainId then { row with status := status } else row) = d :=
  Table.mem_modify db.domains domainId (fun row => { row with status := status }) fun _ => rfl

theorem mem_promote {db : Database} {domain d : Domain} :
    d ∈ (db.promote domain).domains ↔ ∃ row ∈ db.domains,
      (if domain.status = .verified ∧ row.id = domain.id then { row with status := .ready }
        else row) = d := by
  unfold Database.promote
  split
  · rename_i verified
    simp only [mem_setDomainStatus, verified, true_and]
  · rename_i other
    simp [other]

theorem insertMailbox_domains {db db' : Database} {m : Mailbox} (h : db.insertMailbox m = .ok db') :
    db'.domains = db.domains := by
  obtain ⟨_, _, _, rfl⟩ := insertMailbox_ok h
  rfl

theorem insertDomain_ok {db db' : Database} {id : Nat} {name : String}
    {captured : Option (List DnsRecord × Json)}
    (h : db.insertDomain rt id name captured = .ok db') :
    db'.mailboxes = db.mailboxes ∧ ∃ domain : Domain, domain.status = .added ∧
      db.domains.find? domain.id = none ∧ ∀ d, d ∈ db'.domains ↔ d ∈ db.domains ∨ d = domain := by
  obtain ⟨domain, row, h⟩ := ok_of_bind_ok h
  have added : domain.status = .added := by
    obtain ⟨_, _, row⟩ := ok_of_bind_ok row
    split at row
    · cases row
      rfl
    · cases row
  split at h
  · cases h
  split at h
  · rename_i domains inserted
    cases h
    obtain ⟨free, rfl⟩ := Table.insert?_eq_some.mp inserted
    exact ⟨rfl, domain, added, free, Table.mem_insert_iff _ _ free⟩
  · cases h

theorem merge_status (loaded new row : Domain) : (loaded.merge new row).status =
    if new.status = loaded.status then row.status else new.status := rfl

theorem merge_smtpHost (loaded new row : Domain) : (loaded.merge new row).smtpHost =
    if new.smtpHost = loaded.smtpHost then row.smtpHost else new.smtpHost := rfl

/-! The status. -/

@[simp] theorem nextStatus_suspended (report : DomainDnsReport) (hasMailbox : Bool) :
    (nextStatus .suspended report hasMailbox).1 = .suspended := rfl

/-- A status that a refresh sets is earned. -/
theorem nextStatus_earned {current : DomainStatus} {report : DomainDnsReport} {hasMailbox : Bool}
    (changes : (nextStatus current report hasMailbox).1 ≠ current) :
    ((nextStatus current report hasMailbox).1 = .ready → report.canSend = true ∧
      hasMailbox = true) ∧
      ((nextStatus current report hasMailbox).1 = .verified → report.canSend = true) := by
  revert changes
  unfold nextStatus
  dsimp only
  repeat' split
  all_goals simp_all

theorem assess_status {resolver : Resolver} {domainName : String} {now : Time}
    {domain new : Domain} {dnsInfo : Json} {hasMailbox : Bool}
    (assessed : assess c rt resolver domainName now domain dnsInfo hasMailbox = .ok new) :
    (domain.status = .suspended → new.status = .suspended) ∧
      (new.status ≠ domain.status → new.status = .ready → hasMailbox = true) := by
  obtain ⟨report, _, status⟩ := status_of_assess assessed
  rw [status]
  refine ⟨fun suspended => by rw [suspended, nextStatus_suspended], fun changes ready => ?_⟩
  exact ((nextStatus_earned changes).1 ready).2

/-! Mailboxes. -/

/-- Domains keep their mailboxes. -/
def MailboxesKept (db db' : Database) : Prop :=
  ∀ domainId, db.hasMailbox domainId = true → db'.hasMailbox domainId = true

theorem mailboxesKept_of_eq {db db' : Database} (same : db'.mailboxes = db.mailboxes) :
    MailboxesKept db db' := by
  intro domainId has
  rw [Database.hasMailbox, same]
  exact has

theorem hasMailbox_inserted {db db' : Database} {m : Mailbox} (h : db.insertMailbox m = .ok db')
    (domainId : Nat) :
    db'.hasMailbox domainId = (db.hasMailbox domainId || decide (m.domainId = domainId)) := by
  obtain ⟨_, mailboxes, inserted, rfl⟩ := insertMailbox_ok h
  obtain ⟨free, rfl⟩ := Table.insert?_eq_some.mp inserted
  simp [Database.hasMailbox, Table.insert]

theorem DomainChange.mailboxesKept {h h' : History Database} {a : DomainAction σ}
    (change : DomainChange c rt h a h') : MailboxesKept h.current h'.current := by
  cases change with
  | idle | unchanged | refreshed | suspended => exact mailboxesKept_of_eq rfl
  | provisioned _ _ _ inserted =>
      intro domainId has
      rw [History.current_commit, Database.hasMailbox, promote_mailboxes]
      have grown := hasMailbox_inserted inserted domainId
      rw [has] at grown
      exact grown
  | added inserted => exact mailboxesKept_of_eq (insertDomain_ok rt inserted).1

/-- A ready domain has a mailbox, and no mailbox is ever missed again. -/
structure Housed (h : History Database) : Prop where
  ready : ∀ d ∈ h.current.domains, d.status = .ready → h.current.hasMailbox d.id = true
  kept : h.All fun db => MailboxesKept db h.current

theorem DomainChange.housed {h h' : History Database} {a : DomainAction σ}
    (change : DomainChange c rt h a h') (housed : Housed h) : Housed h' := by
  have grows := change.mailboxesKept
  have kept : h'.All fun db => MailboxesKept db h'.current := by
    cases change with
    | idle => exact housed.kept
    | unchanged | refreshed | provisioned | added | suspended =>
        exact housed.kept.grow (fun _ => id) (fun first second id => second id ∘ first id) grows
  refine ⟨?_, kept⟩
  cases change with
  | idle | unchanged => exact housed.ready
  | refreshed mem named answered assessed =>
      intro d row' ready
      obtain ⟨row, old, rfl⟩ := mem_mergeDomain.mp row'
      split at ready
      · rename_i here
        rw [if_pos here]
        rw [merge_status] at ready
        split at ready
        · exact housed.ready row old ready
        · rename_i changes
          have counted := (assess_status c rt assessed).2 changes ready
          exact here ▸ housed.kept.read _ _ counted
      · rename_i elsewhere
        rw [if_neg elsewhere]
        exact housed.ready row old ready
  | provisioned mem split houses inserted =>
      intro d row' ready
      obtain ⟨row, old, rfl⟩ := mem_promote.mp row'
      rw [insertMailbox_domains inserted] at old
      rw [History.current_commit, Database.hasMailbox, promote_mailboxes]
      have grown := hasMailbox_inserted inserted row.id
      split at ready
      · rename_i promoted
        rw [if_pos promoted]
        refine grown.trans ?_
        simp [houses, promoted.2]
      · rename_i other
        rw [if_neg other]
        rw [housed.ready row old ready] at grown
        exact grown
  | added inserted =>
      obtain ⟨same, domain, added, _, rows⟩ := insertDomain_ok rt inserted
      intro d row ready
      rcases (rows d).mp row with old | rfl
      · exact grows d.id (housed.ready d old ready)
      · rw [added] at ready
        cases ready
  | suspended =>
      intro d row' ready
      obtain ⟨row, old, rfl⟩ := mem_setDomainStatus.mp row'
      split at ready
      · cases ready
      · rename_i elsewhere
        rw [if_neg elsewhere]
        exact housed.ready row old ready

theorem housed_of_run {allowed : History Database → DomainAction σ → Prop} {start : Database}
    (untracked : start.domains.rows = []) {h : History Database}
    (run : Reaches (DomainAction.step c rt cipher) allowed (.start start) h) : Housed h := by
  refine run.invariant ⟨?_, .start fun _ => id⟩ fun _ _ _ _ step housed =>
    (domainChange_of_step c rt cipher step).housed c rt housed
  intro d mem
  rw [History.current_start, Table.mem_def, untracked] at mem
  cases mem

/-! What an operator and a provisioning rely on. -/

/-- What an operation has read of a status is not overtaken: no sweep has missed a
suspension, and a domain that a provisioning has found verified is verified or ready. -/
def Timely (h : History Database) : DomainAction σ → Prop
  | .refresh s _ loaded _ => ∀ d ∈ (h.read loaded).domains.rows, d.name = s.domainName →
      ∀ row ∈ h.current.domains.rows, row.id = d.id →
        row.status = .suspended → d.status = .suspended
  | .provision request _ _ _ loaded _ _ => ∀ d ∈ (h.read loaded).domains.rows,
      (splitAddress rt request.address).toOption.map (fun parts => parts.2.2) = some d.name →
        d.status = .verified → ∀ row ∈ h.current.domains.rows, row.id = d.id →
          row.status = .verified ∨ row.status = .ready
  | .add .. => True
  | .suspend _ => True

instance (h : History Database) : (a : DomainAction σ) → Decidable (Timely rt h a)
  | .refresh .. | .provision .. => inferInstanceAs (Decidable (∀ d ∈ _, _))
  | .add .. | .suspend _ => inferInstanceAs (Decidable True)

def DomainAction.provisions : DomainAction σ → Bool
  | .provision .. => true
  | _ => false

/-- A suspended domain stays so, and a provisioning makes verified domains ready and changes
no other status. -/
def DomainAction.Lawful (h h' : History Database) (a : DomainAction σ) : Prop :=
  ∀ d ∈ h.current.domains, ∃ d' ∈ h'.current.domains, d'.id = d.id ∧
    (d.status = .suspended → d'.status = .suspended) ∧
      (a.provisions = true → d'.status ≠ d.status → d.status = .verified ∧ d'.status = .ready)

theorem DomainChange.lawful {h h' : History Database} {a : DomainAction σ}
    (change : DomainChange c rt h a h') (timely : Timely rt h a) : a.Lawful h h' := by
  intro d row
  cases change with
  | idle | unchanged => exact ⟨d, row, rfl, id, fun _ changes => absurd rfl changes⟩
  | refreshed mem named answered assessed =>
      refine ⟨_, mem_mergeDomain.mpr ⟨d, row, rfl⟩, ?_, fun suspended => ?_, nofun⟩
      · split <;> rfl
      · split
        · rename_i here
          have loaded := timely _ mem named d row here suspended
          rw [merge_status, (assess_status c rt assessed).1 loaded, loaded, if_pos rfl]
          exact suspended
        · exact suspended
  | provisioned mem parts houses inserted =>
      refine ⟨_, mem_promote.mpr ⟨d, (insertMailbox_domains inserted).symm ▸ row, rfl⟩, ?_,
        fun suspended => ?_, fun _ changes => ?_⟩
      · split <;> rfl
      · split
        · rename_i promoted
          have sound := timely _ mem (by rw [parts]; rfl) promoted.1 d row promoted.2
          rw [suspended] at sound
          rcases sound with h | h <;> cases h
        · exact suspended
      · split at changes
        · rename_i promoted
          have sound := timely _ mem (by rw [parts]; rfl) promoted.1 d row promoted.2
          rw [if_pos promoted]
          rcases sound with verified | ready
          · exact ⟨verified, rfl⟩
          · exact absurd ready.symm changes
        · exact absurd rfl changes
  | added inserted =>
      obtain ⟨_, _, _, _, rows⟩ := insertDomain_ok rt inserted
      exact ⟨d, (rows d).mpr (.inl row), rfl, id, nofun⟩
  | suspended =>
      refine ⟨_, mem_setDomainStatus.mpr ⟨d, row, rfl⟩, ?_, fun suspended => ?_, nofun⟩
      · split <;> rfl
      · split
        · rfl
        · exact suspended

/-- As long as no operation is overtaken, ready domains have mailboxes, and no operation
changes a status that it is not to change. -/
theorem domains_lawful {start : Database} (untracked : start.domains.rows = [])
    {h : History Database}
    (run : Reaches (DomainAction.step c rt cipher) (Timely rt) (.start start) h) :
    (∀ d ∈ h.current.domains, d.status = .ready → ∃ m ∈ h.current.mailboxes, m.domainId = d.id) ∧
      ∀ a h', Timely rt h a → a.step c rt cipher h = some h' → a.Lawful h h' := by
  refine ⟨fun d mem ready => ?_, fun a h' timely step =>
    (domainChange_of_step c rt cipher step).lawful c rt timely⟩
  obtain ⟨m, has, here⟩ := List.any_eq_true.mp
    ((housed_of_run c rt cipher untracked run).ready d mem ready)
  exact ⟨m, has, of_decide_eq_true here⟩

/-! The host that letters are handed to. -/

/-- The payload that a refresh is given names the host of its first MX record, if it has
one. -/
def DomainAction.NamesHost : DomainAction σ → Prop
  | .refresh s far _ _ =>
      match (c.getDns s.domainName far).1 with
      | .ok dnsInfo => firstHost dnsInfo ≠ .ok (some .null)
      | .error _ => True
  | _ => True

theorem firstHost_of_hosts {dnsInfo : Json} {hosts : List Json} (h : mxHosts dnsInfo = .ok hosts)
    (nonempty : hosts ≠ []) : firstHost dnsInfo ≠ .ok none := by
  obtain ⟨records, listed, h⟩ := ok_of_bind_ok h
  obtain ⟨all, named, h⟩ := ok_of_bind_ok h
  cases h
  unfold firstHost
  rw [listed]
  cases records with
  | nil =>
      cases named
      exact absurd rfl nonempty
  | cons mx rest =>
      intro hostless
      obtain ⟨_, ⟨⟩, hostless⟩ := ok_of_bind_ok hostless
      obtain ⟨_, _, hostless⟩ := ok_of_bind_ok hostless
      cases hostless

/-- A report that lets a domain send has found one of the hosts. -/
theorem firstHost_of_canSend {domainName : String} {dnsInfo : Json} {resolver : Resolver}
    {report : DomainDnsReport} (verified : verifyDomain rt domainName dnsInfo resolver = .ok report)
    (sends : report.canSend = true) : firstHost dnsInfo ≠ .ok none := by
  obtain ⟨q, mx, spf, dkim, dmarc, ownership, asked, made, rfl⟩ :=
    checked_of_verifyDomain rt verified
  rw [canSend_reportOf, Bool.and_eq_true] at sends
  have passes : mx.result = .pass := of_decide_eq_true sends.1
  have hosts := DnsRequirements.hosts_ne_nil ((checkMx_judged rt made.mx).verdict.2.mp passes)
  exact firstHost_of_hosts (dnsRequirements_eq_ok.mp asked).hosts hosts

theorem assigned_known {limit : Nat} {value : Option Json} {loaded text : Option String}
    (h : assigned rt limit value loaded = .ok text) (named : value ≠ some .null)
    (known : value ≠ none ∨ loaded ≠ none) : text ≠ none := by
  cases value with
  | none =>
      cases h
      exact known.resolve_left (absurd rfl)
  | some value =>
      intro unknown
      subst unknown
      cases value with
      | null => exact named rfl
      | string s =>
          dsimp only [assigned, bindText] at h
          split at h <;> cases h
      | _ => cases h

theorem smtpHost_of_bound {changes : DomainChanges} {new : Domain}
    (h : changes.bound rt = .ok new) :
    assigned rt 253 changes.smtpHost changes.loaded.smtpHost = .ok new.smtpHost := by
  obtain ⟨_, host, h⟩ := ok_of_bind_ok h
  obtain ⟨_, _, h⟩ := ok_of_bind_ok h
  split at h
  · cases h
    exact host
  · cases h

/-- The host is kept or replaced, and a domain that is promoted has one. -/
theorem assess_smtpHost {resolver : Resolver} {domainName : String} {now : Time}
    {domain new : Domain} {dnsInfo : Json} {hasMailbox : Bool}
    (assessed : assess c rt resolver domainName now domain dnsInfo hasMailbox = .ok new)
    (named : firstHost dnsInfo ≠ .ok (some .null)) :
    (domain.smtpHost ≠ none → new.smtpHost ≠ none) ∧
      (new.status ≠ domain.status → new.status = .ready ∨ new.status = .verified →
        new.smtpHost ≠ none) := by
  obtain ⟨changes, bound, rfl, verified, status, first⟩ := changes_of_assess assessed
  rw [first] at named
  have known := assigned_known rt (smtpHost_of_bound rt bound) fun null =>
    named (congrArg Except.ok null)
  refine ⟨fun had => known (.inr had), fun moved set => known (.inl fun hostless => ?_)⟩
  rw [status_of_bound rt bound, status] at moved set
  have sends : changes.report.canSend = true := by
    obtain ⟨ready, complete⟩ := nextStatus_earned moved
    exact set.elim (fun set => (ready set).1) complete
  exact firstHost_of_canSend rt verified sends (first.trans (congrArg Except.ok hostless))

/-- Domains keep a host once they have one. -/
def HostsKept (db db' : Database) : Prop :=
  ∀ d ∈ db.domains, d.smtpHost ≠ none → ∃ d' ∈ db'.domains, d'.id = d.id ∧ d'.smtpHost ≠ none

theorem HostsKept.refl (db : Database) : HostsKept db db := fun d mem has => ⟨d, mem, rfl, has⟩

theorem HostsKept.trans {r s t : Database} (first : HostsKept r s) (second : HostsKept s t) :
    HostsKept r t := by
  intro d mem has
  obtain ⟨d', mem', same, has'⟩ := first d mem has
  obtain ⟨d'', mem'', same', has''⟩ := second d' mem' has'
  exact ⟨d'', mem'', same'.trans same, has''⟩

/-- The row that a domain is read from later. -/
theorem HostsKept.row {db db' : Database} (kept : HostsKept db db') {d row : Domain}
    (mem : d ∈ db.domains) (has : d.smtpHost ≠ none) (mem' : row ∈ db'.domains)
    (same : row.id = d.id) : row.smtpHost ≠ none := by
  obtain ⟨d', there, same', has'⟩ := kept d mem has
  obtain rfl := Table.eq_of_key_eq mem' there (same.trans same'.symm)
  exact has'

/-- Every domain that is ready, or that a mailbox would make ready, has a host. -/
def HostsKnown (db : Database) : Prop :=
  ∀ d ∈ db.domains, d.status = .ready ∨ d.status = .verified → d.smtpHost ≠ none

structure Hosted (h : History Database) : Prop where
  known : h.All HostsKnown
  kept : h.All fun db => HostsKept db h.current

/-- The row that a refresh has written to. -/
theorem merge_known {loaded new row : Domain} (has : loaded.smtpHost ≠ none → new.smtpHost ≠ none)
    (had : row.smtpHost ≠ none) : (loaded.merge new row).smtpHost ≠ none := by
  rw [merge_smtpHost]
  split
  · exact had
  · rename_i changes
    exact fun hostless => has (hostless ▸ Ne.symm changes) hostless

theorem DomainChange.hostsKept {h h' : History Database} {a : DomainAction σ}
    (change : DomainChange c rt h a h') (named : a.NamesHost c) :
    HostsKept h.current h'.current := by
  cases change with
  | idle | unchanged => exact .refl _
  | refreshed mem name answered assessed =>
      dsimp only [DomainAction.NamesHost] at named
      rw [answered] at named
      intro row old has
      refine ⟨_, mem_mergeDomain.mpr ⟨row, old, rfl⟩, ?_, ?_⟩
      · split <;> rfl
      · split
        · exact merge_known (assess_smtpHost c rt assessed named).1 has
        · exact has
  | provisioned mem parts houses inserted =>
      intro row old has
      refine ⟨_, mem_promote.mpr ⟨row, (insertMailbox_domains inserted).symm ▸ old, rfl⟩, ?_, ?_⟩
      · split <;> rfl
      · split <;> exact has
  | added inserted =>
      obtain ⟨_, _, _, _, rows⟩ := insertDomain_ok rt inserted
      exact fun row old has => ⟨row, (rows row).mpr (.inl old), rfl, has⟩
  | suspended =>
      intro row old has
      refine ⟨_, mem_setDomainStatus.mpr ⟨row, old, rfl⟩, ?_, ?_⟩
      · split <;> rfl
      · split <;> exact has

theorem DomainChange.hostsKnown {h h' : History Database} {a : DomainAction σ}
    (change : DomainChange c rt h a h') (named : a.NamesHost c) (hosted : Hosted h) :
    HostsKnown h'.current := by
  cases change with
  | idle | unchanged => exact hosted.known.current
  | @refreshed s far far' loaded counted domain new dnsInfo mem name answered assessed =>
      dsimp only [DomainAction.NamesHost] at named
      rw [answered] at named
      obtain ⟨keeps, earns⟩ := assess_smtpHost c rt assessed named
      intro d row' status
      obtain ⟨row, old, rfl⟩ := mem_mergeDomain.mp row'
      split at status
      · rename_i here
        rw [if_pos here]
        rw [merge_status] at status
        split at status
        · exact merge_known keeps (hosted.known.current row old status)
        · rename_i changes
          have has := earns changes status
          rw [merge_smtpHost]
          split
          · rename_i same
            exact (hosted.kept.read loaded).row mem (same ▸ has) old here
          · exact has
      · rename_i elsewhere
        rw [if_neg elsewhere]
        exact hosted.known.current row old status
  | @provisioned _ _ _ _ loaded _ _ _ _ _ _ _ mem parts houses inserted =>
      intro d row' status
      obtain ⟨row, old, rfl⟩ := mem_promote.mp row'
      rw [insertMailbox_domains inserted] at old
      split at status
      · rename_i promoted
        rw [if_pos promoted]
        have had := hosted.known.read loaded _ mem (.inr promoted.1)
        have has : row.smtpHost ≠ none := (hosted.kept.read loaded).row mem had old promoted.2
        exact has
      · rename_i other
        rw [if_neg other]
        exact hosted.known.current row old status
  | added inserted =>
      obtain ⟨_, domain, added, _, rows⟩ := insertDomain_ok rt inserted
      intro d row status
      rcases (rows d).mp row with old | rfl
      · exact hosted.known.current d old status
      · rw [added] at status
        rcases status with h | h <;> cases h
  | suspended =>
      intro d row' status
      obtain ⟨row, old, rfl⟩ := mem_setDomainStatus.mp row'
      split at status
      · rcases status with h | h <;> cases h
      · rename_i elsewhere
        rw [if_neg elsewhere]
        exact hosted.known.current row old status

theorem DomainChange.hosted {h h' : History Database} {a : DomainAction σ}
    (change : DomainChange c rt h a h') (named : a.NamesHost c) (hosted : Hosted h) :
    Hosted h' := by
  have known := change.hostsKnown c rt named hosted
  have kept := change.hostsKept c rt named
  cases change with
  | idle => exact hosted
  | unchanged | refreshed | provisioned | added | suspended =>
      exact ⟨hosted.known.commit known, hosted.kept.grow (.refl _) .trans kept⟩

/-- As long as every payload names the host of its first MX record, ready domains have a
host, and no letter from one of them is undeliverable for want of it. -/
theorem ready_domains_hosted {start : Database} (untracked : start.domains.rows = [])
    {h : History Database}
    (run : Reaches (DomainAction.step c rt cipher) (fun _ a => a.NamesHost c) (.start start) h) :
    (∀ d ∈ h.current.domains, d.status = .ready → d.smtpHost ≠ none) ∧
      ∀ m mailbox domain messageId, domain.status = .ready →
        deliveryRow h.current messageId = some (m, mailbox, domain) →
          ∀ margin adapterFails now later db, openDelivery margin adapterFails h.current messageId
            now later ≠ .ok (.undeliverable, db) := by
  have hosted : Hosted h := by
    refine run.invariant ⟨.start fun d mem => ?_, .start (.refl _)⟩ fun _ _ _ named step hosted =>
      (domainChange_of_step c rt cipher step).hosted c rt named hosted
    rw [Table.mem_def, untracked] at mem
    cases mem
  have known : ∀ d ∈ h.current.domains, d.status = .ready → d.smtpHost ≠ none :=
    fun d mem ready => hosted.known.current d mem (.inl ready)
  refine ⟨known,
    fun m mailbox domain messageId ready found margin adapterFails now later db fails =>
    ?_⟩
  cases opens_of_openDelivery fails with
  | undeliverable found' room noHost rewrites =>
      cases found.symm.trans found'
      exact known domain (Table.mem_of_find? (deliveryRow_eq_some.mp found).2.2) ready noHost

end Histories

namespace Sample

/-- No domain is tracked yet. -/
def untracked : Database :=
  { store mailbox with
    domains := Table.empty, mailboxes := Table.empty, apiKeyScopes := Table.empty }

def addShop : DomainAction Unit := .add "shop.example" 1 () 0

/-- A healthy sweep that has loaded the domain before the last commits. -/
def verifyShop (loaded : Nat) : DomainAction Unit := .refresh healthy () loaded 0

def provisionShop : DomainAction Unit :=
  .provision { address := "noreply@shop.example" } 1 passwordOne () 0 0 0

def setUp : List (DomainAction Unit) := [addShop, verifyShop 0, provisionShop]

abbrev domainStep := DomainAction.step payloadClient runtime cipher

def statuses (h : History Database) : List DomainStatus := h.current.domains.rows.map Domain.status

theorem mem_statuses {h : History Database} {status : DomainStatus} :
    status ∈ statuses h ↔ ∃ d ∈ h.current.domains, d.status = status := List.mem_map

end Sample

/-- A sweep that has loaded the domain before it was suspended takes the suspension back. -/
theorem late_sweep_unsuspends :
    ∃ h h', Reaches Sample.domainStep Any (.start Sample.untracked) h ∧
      Sample.domainStep h (Sample.verifyShop 1) = some h' ∧
        ¬ (Sample.verifyShop 1).Lawful h h' := by
  obtain ⟨reaches, before⟩ : Reaches Sample.domainStep Any (.start Sample.untracked)
      (final Sample.domainStep (.start Sample.untracked) [Sample.addShop, .suspend 1]) ∧
        Sample.statuses (final Sample.domainStep (.start Sample.untracked)
          [Sample.addShop, .suspend 1]) = [.suspended] :=
    reaches_final Sample.statuses (by decide +kernel) fun _ _ _ => trivial
  have after : (Sample.domainStep (final Sample.domainStep (.start Sample.untracked)
      [Sample.addShop, .suspend 1]) (Sample.verifyShop 1)).map Sample.statuses =
        some [.verified] := by decide +kernel
  obtain ⟨h', next, verified⟩ := Option.map_eq_some_iff.mp after
  refine ⟨_, h', reaches, next, fun lawful => ?_⟩
  obtain ⟨d, row, suspended⟩ := Sample.mem_statuses.mp (before ▸ List.mem_singleton_self _)
  obtain ⟨d', row', _, kept, _⟩ := lawful d row
  have still := Sample.mem_statuses.mpr ⟨d', row', kept suspended⟩
  rw [verified] at still
  exact absurd still (by decide)

namespace Sample

instance (a : DomainAction Unit) : Decidable (a.NamesHost payloadClient) :=
  match a with
  | .refresh s far _ _ => by
      unfold DomainAction.NamesHost
      dsimp only
      split <;> infer_instance
  | .provision .. | .add .. | .suspend _ => inferInstanceAs (Decidable True)

/-- The shop is added, verified and provisioned, each step on time and from a payload that
names the host. -/
theorem setUp_ready :
    Reaches domainStep (fun h a => Timely runtime h a ∧ a.NamesHost payloadClient)
        (.start untracked) (final domainStep (.start untracked) setUp) ∧
      statuses (final domainStep (.start untracked) setUp) = [.ready] :=
  reaches_of_guarded statuses (by decide +kernel)

end Sample

theorem provisioned_shop_ready :
    ∃ h, Reaches Sample.domainStep (Timely Sample.runtime) (.start Sample.untracked) h ∧
      ∃ d ∈ h.current.domains, d.status = .ready ∧
        ∃ m ∈ h.current.mailboxes, m.domainId = d.id := by
  obtain ⟨run, ready⟩ := Sample.setUp_ready
  have reaches := run.mono fun _ _ guard => guard.1
  obtain ⟨d, row, status⟩ := Sample.mem_statuses.mp (ready ▸ List.mem_singleton_self _)
  exact ⟨_, reaches, d, row, status, (domains_lawful Sample.payloadClient Sample.runtime
    Sample.cipher rfl reaches).1 d row status⟩

namespace Sample

def hosts (h : History Database) : List (DomainStatus × Option String) :=
  h.current.domains.rows.map fun d => (d.status, d.smtpHost)

theorem mem_hosts {h : History Database} {found : DomainStatus × Option String} :
    found ∈ hosts h ↔ ∃ d ∈ h.current.domains, (d.status, d.smtpHost) = found := List.mem_map

/-- The first of two MX records has no host. -/
def hostlessClient : Mxroute.Client Unit :=
  dnsClient { status := 200, body := .json (.object [("success", .bool true), ("data", .object [
    ("mx_records", .array [.object [("priority", .number 5)],
      .object [("priority", .number 10), ("hostname", .string "mx.example")]]),
    ("spf", .object [("value", .string "v=spf1 include:mxroute.com -all")]),
    ("dkim", .object [("name", .string "x._domainkey"), ("value", .string "v=DKIM1; p=AAAA")]),
    ("verification", .object [("name", .string "_da-verify")])])]) }

end Sample

/-- The check takes the first record with a host, the domain that of the first record. -/
theorem ready_without_host :
    ∃ h, Reaches (DomainAction.step Sample.hostlessClient Sample.runtime Sample.cipher) Any
        (.start Sample.untracked) h ∧
      ∃ d ∈ h.current.domains, d.status = .ready ∧ d.smtpHost = none := by
  let step := DomainAction.step Sample.hostlessClient Sample.runtime Sample.cipher
  obtain ⟨reaches, ready⟩ : Reaches step Any (.start Sample.untracked)
      (final step (.start Sample.untracked) Sample.setUp) ∧
        Sample.hosts (final step (.start Sample.untracked) Sample.setUp) = [(.ready, none)] :=
    reaches_final Sample.hosts (by decide +kernel) fun _ _ _ => trivial
  obtain ⟨d, row, found⟩ := Sample.mem_hosts.mp (ready ▸ List.mem_singleton_self _)
  exact ⟨_, reaches, d, row, congrArg Prod.fst found, congrArg Prod.snd found⟩

theorem ready_shop_hosted :
    ∃ h, Reaches Sample.domainStep (fun _ a => a.NamesHost Sample.payloadClient)
        (.start Sample.untracked) h ∧
      ∃ d ∈ h.current.domains, d.status = .ready ∧ d.smtpHost ≠ none := by
  obtain ⟨run, ready⟩ := Sample.setUp_ready
  have reaches := run.mono fun _ _ guard => guard.2
  obtain ⟨d, row, status⟩ := Sample.mem_statuses.mp (ready ▸ List.mem_singleton_self _)
  exact ⟨_, reaches, d, row, status, (ready_domains_hosted Sample.payloadClient Sample.runtime
    Sample.cipher rfl reaches).1 d row status⟩

end Emaild
