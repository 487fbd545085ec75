import Emaild.Dashboard.TestSend
import Emaild.Provisioning

/-!
Whether the commands that the dashboard advises are ones that the system carries out. The
advice and the checks of a provisioning are read off the same rows in two places.
-/
namespace Emaild
open Relational Text

/-- The command that provisions an address. -/
def provisionCommand (address : String) : String :=
  s!"./appctl admin mailboxes provision {address}"

/-- A provisioning of the address passes the checks that come before the first request. -/
def World.Provisionable {σ : Type} (rt : Runtime) (w : World σ) (address : String) : Prop :=
  ∃ target s, (provisionTarget rt { address := address } fun _ db => db).exec (.begin w) =
    (.ok target, s)

/-- Every command that is advised passes the checks. -/
def World.AdviceRuns {σ : Type} (rt : Runtime) (w : World σ) : Prop :=
  ∀ b ∈ w.db.blockedSenders, ∀ address, b.command = some (provisionCommand address) →
    w.Provisionable rt address

/-- What the rows owe to the schema and to `provision_mailbox`, which alone writes mailboxes:
names of domains are unique, and an address is stored as it is normalised, on the domain
that it names. -/
structure Database.Addressed (rt : Runtime) (db : Database) : Prop where
  names : ∀ d ∈ db.domains, ∀ d' ∈ db.domains, d.name = d'.name → d = d'
  addresses : ∀ m ∈ db.mailboxes, ∃ localPart d, db.domains.find? m.domainId = some d ∧
    splitAddress rt m.address = .ok (m.address, localPart, d.name)

/-- The ownership of the domain has been verified at some time. -/
def Domain.PastOwnership (d : Domain) : Prop := ¬ (d.status = .added ∨ d.status = .ownershipPending)

/-- No mailbox of a ready domain is deactivated, and what is advised for a domain without a
mailbox names, once normalised, a domain past ownership that has none. -/
structure Database.Advisable (rt : Runtime) (db : Database) : Prop where
  active : ∀ m ∈ db.mailboxes, ∀ d, db.domains.find? m.domainId = some d → d.status = .ready →
    m.active = true
  named : ∀ d ∈ db.domains, db.hasMailbox d.id = false → d.status = .ready ∨ d.status = .verified →
    ∃ address localPart, ∃ d' ∈ db.domains,
      splitAddress rt s!"noreply@{d.name}" = .ok (address, localPart, d'.name) ∧
        d'.PastOwnership ∧ db.hasMailbox d'.id = false

/-! What the checks accept. -/

theorem splitAddress_eq_ok {rt : Runtime} {raw address localPart domainName : String} :
    splitAddress rt raw = .ok (address, localPart, domainName) ↔
      address = rt.lower (strip raw) ∧ '@' ∈ address.toList ∧
        partition '@' address = (localPart, domainName) ∧ localPart ≠ "" := by
  simp only [splitAddress]
  split
  · rename_i marked
    split
    · rename_i empty
      simp only [reduceCtorEq, false_iff]
      rintro ⟨rfl, _, split, named⟩
      exact named (by rw [← empty, split])
    · rename_i named
      simp only [Except.ok.injEq, Prod.mk.injEq]
      constructor
      · rintro ⟨rfl, rfl, rfl⟩
        exact ⟨rfl, marked, rfl, named⟩
      · rintro ⟨rfl, _, split, _⟩
        exact ⟨rfl, by rw [split], by rw [split]⟩
  · rename_i unmarked
    simp only [reduceCtorEq, false_iff]
    rintro ⟨rfl, marked, _⟩
    exact unmarked marked

section Checks
variable {db : Database}

theorem checkNotProvisioned_eq_ok {address : String} :
    checkNotProvisioned db address = .ok ⟨⟩ ↔ ∀ m ∈ db.mailboxes, m.address ≠ address := by
  have unnamed : db.mailboxesNamed address = [] ↔ ∀ m ∈ db.mailboxes, m.address ≠ address := by
    simp [Database.mailboxesNamed, Mailbox.named, Table.mem_def]
  rw [← unnamed, ← scalarOneOrNone_none]
  unfold checkNotProvisioned
  cases scalarOneOrNone (db.mailboxesNamed address) with
  | error e => simp [bind, Except.bind]
  | ok found => cases found <;> simp [bind, Except.bind, pure, Except.pure]

theorem checkPolicy_eq_ok {d : Domain} :
    checkPolicy db d false = .ok ⟨⟩ ↔ db.hasMailbox d.id = false := by
  simp [checkPolicy, Database.hasMailbox]

theorem provisionableDomain_eq_ok (names : ∀ d ∈ db.domains, ∀ d' ∈ db.domains,
    d.name = d'.name → d = d') {domainName : String} {d : Domain} :
    provisionableDomain db domainName = .ok d ↔
      d ∈ db.domains ∧ d.name = domainName ∧ d.PastOwnership := by
  have single (d : Domain) : (db.domains.rows.filter fun x => x.name = domainName) = [d] ↔
      d ∈ db.domains ∧ d.name = domainName := by
    rw [Table.filter_eq_singleton]
    constructor
    · rintro ⟨⟨mem, named⟩, _⟩
      exact ⟨mem, of_decide_eq_true named⟩
    · rintro ⟨mem, rfl⟩
      exact ⟨⟨mem, decide_eq_true rfl⟩,
        fun d' mem' same => names d' mem' d mem (of_decide_eq_true same)⟩
  rw [← and_assoc, ← single, ← scalarOneOrNone_some]
  unfold provisionableDomain
  cases scalarOneOrNone (db.domains.rows.filter fun x => x.name = domainName) with
  | error e => simp [bind, Except.bind]
  | ok found =>
      cases found with
      | none => simp [bind, Except.bind]
      | some d' =>
          by_cases early : d'.status = .added ∨ d'.status = .ownershipPending
          · simp only [bind, Except.bind, early, if_true, reduceCtorEq, Except.ok.injEq,
              Option.some.injEq, false_iff]
            rintro ⟨rfl, past⟩
            exact past early
          · simp only [bind, Except.bind, early, if_false, pure, Except.pure, Except.ok.injEq,
              Option.some.injEq]
            exact ⟨fun same => ⟨same, same ▸ early⟩, And.left⟩

end Checks

section Commands
variable {σ : Type} {rt : Runtime} {w : World σ}

theorem provisionable_iff_checks {address : String} :
    w.Provisionable rt address ↔
      ∃ normalised localPart domainName d,
        splitAddress rt address = .ok (normalised, localPart, domainName) ∧
          provisionableDomain w.db domainName = .ok d ∧
            checkNotProvisioned w.db normalised = .ok ⟨⟩ ∧
              checkPolicy.{0} w.db d false = .ok ⟨⟩ := by
  simp only [World.Provisionable, provisionTarget, Tx.exec_bind, Tx.exec_lift, Session.begin]
  cases splitAddress rt address with
  | error e => simp
  | ok parts =>
      obtain ⟨normalised, localPart, domainName⟩ := parts
      simp only [World.exec_database, World.exec_meanwhile]
      simp only [Except.ok.injEq, Prod.mk.injEq]
      constructor
      · rintro ⟨target, s, passed⟩
        cases usable : provisionableDomain w.db domainName with
        | error e => simp [usable] at passed
        | ok d =>
            cases new : checkNotProvisioned w.db normalised with
            | error e => simp [usable, new] at passed
            | ok _ =>
                cases policy : checkPolicy.{0} w.db d false with
                | error e =>
                    simp only [usable, new] at passed
                    rw [policy] at passed
                    cases passed
                | ok _ => exact ⟨_, _, _, d, ⟨rfl, rfl, rfl⟩, usable, new, policy⟩
      · rintro ⟨_, _, _, d, ⟨rfl, rfl, rfl⟩, usable, new, policy⟩
        simp only [usable, new]
        rw [policy]
        exact ⟨_, _, rfl⟩

/-- The checks as one condition on the rows. -/
theorem provisionable_iff
    (names : ∀ d ∈ w.db.domains, ∀ d' ∈ w.db.domains, d.name = d'.name → d = d')
    {address : String} :
    w.Provisionable rt address ↔
      ∃ normalised localPart, ∃ d ∈ w.db.domains,
        splitAddress rt address = .ok (normalised, localPart, d.name) ∧ d.PastOwnership ∧
          (∀ m ∈ w.db.mailboxes, m.address ≠ normalised) ∧ w.db.hasMailbox d.id = false := by
  simp only [provisionable_iff_checks, provisionableDomain_eq_ok names, checkNotProvisioned_eq_ok,
    checkPolicy_eq_ok]
  constructor
  · rintro ⟨normalised, localPart, _, d, split, ⟨mem, rfl, past⟩, free, alone⟩
    exact ⟨normalised, localPart, d, mem, split, past, free, alone⟩
  · rintro ⟨normalised, localPart, d, mem, split, past, free, alone⟩
    exact ⟨normalised, localPart, d.name, d, split, ⟨mem, rfl, past⟩, free, alone⟩

/-! The entries that carry a command. -/

theorem provisionCommand_inj {a b : String} : provisionCommand a = provisionCommand b ↔ a = b := by
  unfold provisionCommand
  exact String.append_right_inj _

theorem provisionCommand_domain (name : String) :
    s!"./appctl admin mailboxes provision noreply@{name}" =
      provisionCommand s!"noreply@{name}" := by
  have literal : "./appctl admin mailboxes provision noreply@" =
      "./appctl admin mailboxes provision " ++ "noreply@" := rfl
  unfold provisionCommand
  rw [literal]
  exact String.append_assoc

theorem blockedMailbox_advises {db : Database} {m : Mailbox} {address : String} :
    (∃ b, db.blockedMailbox m = some b ∧ b.command = some (provisionCommand address)) ↔
      ∃ d, db.domains.find? m.domainId = some d ∧ d.status = .ready ∧ m.active = false ∧
        m.address = address := by
  unfold Database.blockedMailbox
  cases db.domains.find? m.domainId with
  | none => simp
  | some d =>
      by_cases ready : d.status = .ready
      · cases active : m.active with
        | false =>
            simp only [ready, ne_eq, not_true, if_false, if_true, Option.some.injEq]
            constructor
            · rintro ⟨_, rfl, same⟩
              exact ⟨d, rfl, ready, trivial, provisionCommand_inj.mp (Option.some.inj same)⟩
            · rintro ⟨_, rfl, _, _, rfl⟩
              exact ⟨_, rfl, rfl⟩
        | true => by_cases listed : m.id ∈ db.scopedMailboxIds <;> simp [ready, listed]
      · simp [ready]

theorem blockedDomain_advises {db : Database} {d : Domain} {address : String} :
    (∃ b, db.blockedDomain d = some b ∧ b.command = some (provisionCommand address)) ↔
      db.hasMailbox d.id = false ∧ (d.status = .ready ∨ d.status = .verified) ∧
        s!"noreply@{d.name}" = address := by
  unfold Database.blockedDomain
  cases alone : db.hasMailbox d.id with
  | true => simp
  | false =>
      cases status : d.status <;>
        simp [provisionCommand_domain, provisionCommand_inj]

/-- A command is advised for a deactivated mailbox of a ready domain, and for a domain that
lacks nothing but a mailbox. -/
theorem advised_iff {db : Database} {address : String} :
    (∃ b ∈ db.blockedSenders, b.command = some (provisionCommand address)) ↔
      (∃ m ∈ db.mailboxes, ∃ d, db.domains.find? m.domainId = some d ∧ d.status = .ready ∧
        m.active = false ∧ m.address = address) ∨
      ∃ d ∈ db.domains, db.hasMailbox d.id = false ∧ (d.status = .ready ∨ d.status = .verified) ∧
        s!"noreply@{d.name}" = address := by
  simp only [← blockedMailbox_advises, ← blockedDomain_advises, Database.blockedSenders,
    List.mem_append, Database.blockedMailboxes, Database.blockedDomains, List.mem_filterMap,
    List.mem_insertionSort, Table.mem_def]
  constructor
  · rintro ⟨b, ⟨m, mem, blocked⟩ | ⟨d, mem, blocked⟩, command⟩
    · exact .inl ⟨m, mem, b, blocked, command⟩
    · exact .inr ⟨d, mem, b, blocked, command⟩
  · rintro (⟨m, mem, b, blocked, command⟩ | ⟨d, mem, b, blocked, command⟩)
    · exact ⟨b, .inl ⟨m, mem, blocked⟩, command⟩
    · exact ⟨b, .inr ⟨d, mem, blocked⟩, command⟩

/-- An address that is stored is refused. -/
theorem not_provisionable_of_stored (addressed : w.db.Addressed rt) {m : Mailbox}
    (mem : m ∈ w.db.mailboxes) : ¬ w.Provisionable rt m.address := by
  rw [provisionable_iff addressed.names]
  rintro ⟨normalised, _, _, _, split, _, free, _⟩
  obtain ⟨_, _, _, own⟩ := addressed.addresses m mem
  have stored : m.address = normalised := (Prod.mk.inj (Except.ok.inj (own.symm.trans split))).1
  exact free m mem stored

/-- A domain without a mailbox keeps every address on it free. -/
theorem free_of_alone (addressed : w.db.Addressed rt) {d : Domain} (mem : d ∈ w.db.domains)
    (alone : w.db.hasMailbox d.id = false) {raw address localPart : String}
    (split : splitAddress rt raw = .ok (address, localPart, d.name)) :
    ∀ m ∈ w.db.mailboxes, m.address ≠ address := by
  rintro m stored rfl
  obtain ⟨_, d', domain, own⟩ := addressed.addresses m stored
  obtain ⟨_, _, parts, _⟩ := splitAddress_eq_ok.mp split
  obtain ⟨_, _, own, _⟩ := splitAddress_eq_ok.mp own
  have named : d'.name = d.name := (Prod.mk.inj (own.symm.trans parts)).2
  have isD := addressed.names d' (Table.mem_of_find? domain) d mem named
  rw [isD] at domain
  have has : w.db.hasMailbox d.id = true :=
    List.any_eq_true.mpr ⟨m, stored, decide_eq_true (Table.key_of_find? domain).symm⟩
  rw [alone] at has
  cases has

theorem adviceRuns_iff (rt : Runtime) (w : World σ) (addressed : w.db.Addressed rt) :
    w.AdviceRuns rt ↔ w.db.Advisable rt := by
  have advised : w.AdviceRuns rt ↔ ∀ address,
      (∃ b ∈ w.db.blockedSenders, b.command = some (provisionCommand address)) →
        w.Provisionable rt address :=
    ⟨fun runs address ⟨b, mem, command⟩ => runs b mem address command,
      fun runs b mem address command => runs address ⟨b, mem, command⟩⟩
  simp only [advised, advised_iff]
  constructor
  · intro runs
    constructor
    · intro m mem d domain ready
      by_contra inactive
      refine not_provisionable_of_stored addressed mem (runs m.address (.inl ?_))
      exact ⟨m, mem, d, domain, ready, by simpa using inactive, rfl⟩
    · intro d mem alone status
      obtain ⟨address, localPart, d', mem', split, past, _, alone'⟩ :=
        (provisionable_iff addressed.names).mp (runs _ (.inr ⟨d, mem, alone, status, rfl⟩))
      exact ⟨address, localPart, d', mem', split, past, alone'⟩
  · rintro advisable _ (⟨m, mem, d, domain, ready, inactive, rfl⟩ | ⟨d, mem, alone, status, rfl⟩)
    · rw [advisable.active m mem d domain ready] at inactive
      cases inactive
    · obtain ⟨address, localPart, d', mem', split, past, alone'⟩ :=
        advisable.named d mem alone status
      exact (provisionable_iff addressed.names).mpr ⟨address, localPart, d', mem', split, past,
        free_of_alone addressed mem' alone' split, alone'⟩

end Commands

/-! That mailboxes stay where their addresses say. -/

/-- A promotion changes neither the numbers nor the names of the domains. -/
theorem promote_domains (db : Database) (domain : Domain) :
    ∃ g : Domain → Domain, (∀ d, (g d).name = d.name) ∧
      (∀ d, d ∈ (db.promote domain).domains ↔ ∃ d' ∈ db.domains, g d' = d) ∧
        ∀ k, (db.promote domain).domains.find? k = (db.domains.find? k).map g := by
  unfold Database.promote
  split
  · rw [Database.setDomainStatus]
    refine ⟨fun d => if d.id = domain.id then { d with status := .ready } else d, fun d => ?_,
      fun d => Table.mem_modify db.domains domain.id (fun d => { d with status := .ready })
        fun _ => rfl, fun k => ?_⟩
    · dsimp only
      split <;> rfl
    · rw [Table.modify]
      simpa only [decide_eq_true_eq] using Table.find?_update db.domains
        (fun d => d.id = domain.id) (fun d => { d with status := .ready }) (fun _ => rfl) k
  · exact ⟨id, fun _ => rfl, fun d => by simp, fun k => by simp⟩

/-- What a provisioning writes is addressed as the rows that were there. -/
theorem Database.Addressed.provision {rt : Runtime} {db db' : Database}
    (addressed : db.Addressed rt)
    (settled : ∀ raw, rt.lower (strip (rt.lower (strip raw))) = rt.lower (strip raw))
    {request : ProvisionRequest} {target : ProvisionTarget}
    (checked : target.Checked rt request (fun _ db => db) db) {cipher : MailboxCipher} {id : Nat}
    {draw : PasswordDraw} {displayName : Option String}
    (inserted : db.insertMailbox
      (newMailbox cipher id draw target.domain target.address displayName) = .ok db') :
    (db'.promote target.domain).Addressed rt := by
  obtain ⟨_, mailboxes, insert, rfl⟩ := insertMailbox_ok inserted
  obtain ⟨free, rfl⟩ := Table.insert?_eq_some.mp insert
  obtain ⟨mem, named, _⟩ := (provisionableDomain_eq_ok addressed.names).mp checked.usable
  obtain ⟨g, names, listed, found⟩ := promote_domains
    { db with mailboxes := db.mailboxes.insert _ free } target.domain
  constructor
  · intro d there d' there' same
    obtain ⟨a, mem, rfl⟩ := (listed d).mp there
    obtain ⟨a', mem', rfl⟩ := (listed d').mp there'
    rw [names, names] at same
    rw [addressed.names a mem a' mem' same]
  · intro m stored
    rw [promote_mailboxes] at stored
    rcases (Table.mem_insert_iff db.mailboxes _ free m).mp stored with old | rfl
    · obtain ⟨localPart, d, domain, split⟩ := addressed.addresses m old
      refine ⟨localPart, g d, ?_, by rwa [names]⟩
      rw [found]
      exact congrArg (Option.map g) domain
    · refine ⟨target.localPart, g target.domain, ?_, ?_⟩
      · rw [found]
        exact congrArg (Option.map g) (Table.find?_of_mem mem)
      · rw [names, named]
        obtain ⟨normalised, marked, parts, nonempty⟩ := splitAddress_eq_ok.mp checked.split
        refine splitAddress_eq_ok.mpr ⟨?_, marked, parts, nonempty⟩
        change target.address = rt.lower (strip target.address)
        rw [normalised, settled]

namespace Sample

/-- A ready domain on which no mailbox has been provisioned. -/
def unmailed : World Unit where
  db := { store mailbox with mailboxes := Table.empty, apiKeyScopes := Table.empty }
  far := ()

def deactivated : Mailbox := { mailbox with active := false }

theorem store_addressed (m : Mailbox) (own : m.domainId = 1)
    (address : m.address = "noreply@shop.example") : (store m).Addressed runtime where
  names d mem d' mem' _ := (List.mem_singleton.mp mem).trans (List.mem_singleton.mp mem').symm
  addresses m' mem := by
    cases List.mem_singleton.mp mem
    refine ⟨"noreply", domain, by rw [own]; rfl, ?_⟩
    rw [address]
    decide

end Sample

theorem unmailed_advice_runs : Sample.unmailed.AdviceRuns Sample.runtime := by
  refine (adviceRuns_iff Sample.runtime Sample.unmailed ⟨?_, ?_⟩).mpr ⟨?_, ?_⟩
  · exact (Sample.store_addressed Sample.mailbox rfl rfl).names
  · exact fun m mem => absurd mem (Table.not_mem_empty m)
  · exact fun m mem => absurd mem (Table.not_mem_empty m)
  · intro d mem _ _
    cases List.mem_singleton.mp mem
    exact ⟨"noreply@shop.example", "noreply", Sample.domain, mem, by decide,
      by unfold Domain.PastOwnership; decide, rfl⟩

/-- A deactivated mailbox is to be provisioned again, which is refused. -/
theorem deactivated_mailbox_is_refused :
    ¬ (⟨Sample.store Sample.deactivated, ()⟩ : World Unit).AdviceRuns Sample.runtime := by
  intro runs
  have stored : Sample.deactivated ∈ (Sample.store Sample.deactivated).mailboxes :=
    List.mem_singleton_self _
  obtain ⟨b, mem, command⟩ := advised_iff.mpr
    (.inl ⟨Sample.deactivated, stored, Sample.domain, rfl, rfl, rfl, rfl⟩)
  exact not_provisionable_of_stored (w := ⟨Sample.store Sample.deactivated, ()⟩)
    (Sample.store_addressed Sample.deactivated rfl rfl) stored (runs b mem _ command)

end Emaild
