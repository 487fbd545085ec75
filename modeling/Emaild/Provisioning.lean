import Emaild.Crypto
import Emaild.Management
import Emaild.Mxroute

/-!
Sender identities: provisioning a mailbox and rotating its password. The provider
is changed first and the local row is written last, so a call that fails leaves
the database as it was and the provider wherever the requests have brought it.
-/
namespace Emaild
open Relational Text

/-- `PROVIDER_HOURLY_LIMIT` -/
def providerHourlyLimit : Nat := 400
/-- `PROVIDER_DAILY_LIMIT` -/
def providerDailyLimit : Nat := 9600

/-- The arguments of `provision_mailbox`. -/
structure ProvisionRequest where
  address : String
  displayName : Option String := none
  quotaMb : Nat := 1024
  allowAdditionalIdentity : Bool := false

/-- What a run draws: a password and the vector it is encrypted with. -/
structure PasswordDraw where
  password : GeneratedPassword
  vector : Nat

def Mailbox.named (address : String) (m : Mailbox) : Bool := m.address = address

def Database.mailboxesNamed (db : Database) (address : String) : List Mailbox :=
  db.mailboxes.rows.filter (Mailbox.named address)

/-- The address of a request with its two parts. -/
def splitAddress (rt : Runtime) (raw : String) : Except Raised (String × String × String) :=
  let address := rt.lower (strip raw)
  if '@' ∈ address.toList then
    let (localPart, domainName) := partition '@' address
    if localPart = "" then .error (.provisioning s!"missing local part: {address}")
    else .ok (address, localPart, domainName)
  else .error (.provisioning s!"not an email address: {address}")

/-- The domain a mailbox is provisioned on. -/
def provisionableDomain (db : Database) (domainName : String) : Except Raised Domain := do
  match ← scalarOneOrNone (db.domains.rows.filter fun d => d.name = domainName) with
  | none => .error (.provisioning s!"domain not tracked: {domainName}. Add it first.")
  | some domain =>
      if domain.status = .added ∨ domain.status = .ownershipPending then
        .error (.provisioning (s!"domain {domainName} is {domain.status.value}; publish its DNS " ++
          "records and re-verify before provisioning a mailbox"))
      else return domain

def checkNotProvisioned (db : Database) (address : String) : Except Raised PUnit := do
  match ← scalarOneOrNone (db.mailboxesNamed address) with
  | none => return ⟨⟩
  | some _ => .error (.provisioning s!"mailbox already provisioned: {address}")

/-- The policy gate: a second mailbox on a domain has to be a distinct identity. -/
def checkPolicy (db : Database) (domain : Domain) (allowAdditionalIdentity : Bool) :
    Except Raised PUnit :=
  let siblings := db.mailboxes.rows.filter fun m => m.domainId = domain.id
  if !siblings.isEmpty && !allowAdditionalIdentity then
    let addresses := ", ".intercalate (siblings.map Mailbox.address)
    .error (.policyViolation (s!"{domain.name} already has a sender identity ({addresses}). " ++
      "Creating additional mailboxes to increase the 400/hour budget violates " ++
      "MXRoute's acceptable-use policy and risks account termination. " ++
      "If this is a genuinely distinct sender identity, pass " ++
      "allow_additional_identity=True (CLI: --additional-identity)."))
  else .ok ⟨⟩

/-- Flushing a new mailbox: its address is unique, and the columns are bounded. -/
def Database.insertMailbox (db : Database) (m : Mailbox) : Except Raised Database :=
  if 320 < m.address.length ∨ 200 < (orEmpty m.displayName).length then .error .dataError
  else if !(db.mailboxesNamed m.address).isEmpty then .error .integrityError
  else match db.mailboxes.insert? m with
    | some mailboxes => .ok { db with mailboxes := mailboxes }
    | none => .error .integrityError

def Database.setDomainStatus (db : Database) (domainId : Nat) (status : DomainStatus) :
    Database :=
  { db with domains := db.domains.modify domainId fun d => { d with status := status } }

def Database.setPassword (db : Database) (mailboxId : Nat) (passwordEncrypted : String) :
    Database :=
  { db with mailboxes := db.mailboxes.modify mailboxId fun m =>
      { m with passwordEncrypted := passwordEncrypted } }

section Provision
variable {σ : Type} (c : Mxroute.Client σ)

/-- The account is created at the provider, or one that is there is adopted: its
password is replaced by the new one. -/
def createOrAdopt (domainName localPart password : String) (quotaMb : Nat) (far : σ) :
    Except Raised Json × σ :=
  match c.createEmailAccount domainName localPart password quotaMb providerDailyLimit far with
  | (.error (.provider (.conflict _)), far) =>
      c.updateEmailAccount domainName localPart { password := some password } far
  | result => result

def newMailbox (cipher : MailboxCipher) (id : Nat) (draw : PasswordDraw) (domain : Domain)
    (address : String) (displayName : Option String) : Mailbox where
  id := id
  domainId := domain.id
  address := address
  passwordEncrypted := cipher.encrypt draw.vector draw.password.text
  displayName := displayName
  hourlyLimit := providerHourlyLimit
  active := true

/-- The store after the first few of the transactions beside this one. -/
def afterOthers (others : Nat → Database → Database) (db : Database) : Nat → Database
  | 0 => db
  | n + 1 => others n (afterOthers others db n)

@[simp] theorem afterOthers_alone (db : Database) (n : Nat) :
    afterOthers (fun _ db => db) db n = db := by
  induction n with
  | zero => rfl
  | succ n ih => exact ih

/-- What a request is about, once it has passed the checks. -/
structure ProvisionTarget where
  address : String
  localPart : String
  domainName : String
  domain : Domain

/-- `provision_mailbox` up to the first request. Other transactions may commit after
the domain is read and after the address is looked up. -/
def provisionTarget (rt : Runtime) (request : ProvisionRequest)
    (others : Nat → Database → Database) : Tx (World σ) Raised ProvisionTarget := do
  let (address, localPart, domainName) ← Tx.lift (splitAddress rt request.address)
  let domain ← Tx.lift (provisionableDomain (← World.database) domainName)
  World.meanwhile (others 0)
  Tx.lift (checkNotProvisioned (← World.database) address)
  World.meanwhile (others 1)
  Tx.lift (checkPolicy (← World.database) domain request.allowAdditionalIdentity)
  return ⟨address, localPart, domainName, domain⟩

/-- A domain that lacked nothing but a mailbox is promoted. Its status is judged as
it was read, and no other column is written. -/
def Database.promote (db : Database) (domain : Domain) : Database :=
  if domain.status = .verified then db.setDomainStatus domain.id .ready else db

/-- `provision_mailbox`: the row and the password. Other transactions may commit
while the provider is asked. -/
def provisionMailbox (rt : Runtime) (cipher : MailboxCipher) (request : ProvisionRequest)
    (id : Nat) (draw : PasswordDraw) (others : Nat → Database → Database) :
    Tx (World σ) Raised (Mailbox × String) := do
  let target ← provisionTarget rt request others
  let _ ← World.call (createOrAdopt c target.domainName target.localPart draw.password.text
    request.quotaMb)
  World.meanwhile (others 2)
  let mailbox := newMailbox cipher id draw target.domain target.address request.displayName
  World.flush fun db => db.insertMailbox mailbox
  World.edit fun db => db.promote target.domain
  return (mailbox, draw.password.text)

/-- `rotate_mailbox_password` -/
def rotateMailboxPassword (cipher : MailboxCipher) (address : String) (draw : PasswordDraw) :
    Tx (World σ) Raised String := do
  match ← Tx.lift (scalarOneOrNone ((← World.database).mailboxesNamed address)) with
  | none => throw (.provisioning s!"mailbox not tracked: {address}")
  | some mailbox =>
      let (localPart, domainName) := partition '@' address
      let _ ← World.call
        (c.updateEmailAccount domainName localPart { password := some draw.password.text })
      World.edit fun db =>
        db.setPassword mailbox.id (cipher.encrypt draw.vector draw.password.text)
      return draw.password.text

/-- What the checks of a provisioning have established. -/
structure ProvisionTarget.Checked (rt : Runtime) (request : ProvisionRequest)
    (others : Nat → Database → Database) (db : Database) (target : ProvisionTarget) : Prop where
  split : splitAddress rt request.address =
    .ok (target.address, target.localPart, target.domainName)
  usable : provisionableDomain db target.domainName = .ok target.domain
  new : checkNotProvisioned (others 0 db) target.address = .ok ⟨⟩

theorem exec_provisionTarget (rt : Runtime) (request : ProvisionRequest)
    (others : Nat → Database → Database) (w : World σ) :
    (∃ e n s, (provisionTarget rt request others).exec (.begin w) = (.error e, s) ∧
        s.committed = { w with db := afterOthers others w.db n }) ∨
      ∃ target, target.Checked rt request others w.db ∧
        (provisionTarget rt request others).exec (.begin w) = (.ok target,
          ⟨{ w with db := afterOthers others w.db 2 }, { w with db := afterOthers others w.db 2 },
            false⟩) := by
  simp only [provisionTarget, Tx.exec_bind, Tx.exec_lift, Session.begin]
  cases split : splitAddress rt request.address with
  | error e => exact .inl ⟨e, 0, _, rfl, rfl⟩
  | ok parts =>
      obtain ⟨address, localPart, domainName⟩ := parts
      simp only [World.exec_database, World.exec_meanwhile]
      cases usable : provisionableDomain w.db domainName with
      | error e => exact .inl ⟨e, 0, _, rfl, rfl⟩
      | ok domain =>
          simp only
          cases new : checkNotProvisioned (others 0 w.db) address with
          | error e => exact .inl ⟨e, 1, _, rfl, rfl⟩
          | ok _ =>
              simp only
              cases checkPolicy (others 1 (others 0 w.db)) domain
                request.allowAdditionalIdentity with
              | error e => exact .inl ⟨e, 2, _, rfl, rfl⟩
              | ok _ =>
                  exact .inr ⟨⟨address, localPart, domainName, domain⟩, ⟨split, usable, new⟩, rfl⟩

/-- How a provisioning ends. One that fails commits nothing, and what is beyond the
client is as its requests have left it. -/
inductive Provisions (rt : Runtime) (cipher : MailboxCipher) (request : ProvisionRequest)
    (id : Nat) (draw : PasswordDraw) (others : Nat → Database → Database) (w : World σ) :
    Except Raised (Mailbox × String) × World σ → Prop
  | refused {e : Raised} (n : Nat) :
      Provisions rt cipher request id draw others w
        (.error e, { w with db := afterOthers others w.db n })
  | failed {e : Raised} {target : ProvisionTarget} (n : Nat)
      (checked : target.Checked rt request others w.db) :
      Provisions rt cipher request id draw others w (.error e,
        ⟨afterOthers others w.db n, (createOrAdopt c target.domainName target.localPart
          draw.password.text request.quotaMb w.far).2⟩)
  | done {answer : Json} {target : ProvisionTarget} {db : Database} {far : σ}
      (checked : target.Checked rt request others w.db)
      (created : createOrAdopt c target.domainName target.localPart draw.password.text
        request.quotaMb w.far = (.ok answer, far))
      (inserted : (afterOthers others w.db 3).insertMailbox
        (newMailbox cipher id draw target.domain target.address request.displayName) = .ok db) :
      Provisions rt cipher request id draw others w
        (.ok (newMailbox cipher id draw target.domain target.address request.displayName,
          draw.password.text), ⟨db.promote target.domain, far⟩)

theorem provisionMailbox_cases (rt : Runtime) (cipher : MailboxCipher)
    (request : ProvisionRequest) (id : Nat) (draw : PasswordDraw)
    (others : Nat → Database → Database) (w : World σ) :
    Provisions c rt cipher request id draw others w
      (sessionScope (provisionMailbox c rt cipher request id draw others) w) := by
  unfold sessionScope provisionMailbox
  rcases exec_provisionTarget rt request others w with
    ⟨e, n, s, refused, same⟩ | ⟨target, checked, passed⟩
  · rw [Tx.exec_bind_error refused]
    dsimp only
    rw [same]
    exact .refused n
  · rw [Tx.exec_bind_ok passed, Tx.exec_bind, World.exec_call]
    cases created : createOrAdopt c target.domainName target.localPart draw.password.text
      request.quotaMb w.far with
    | mk result far =>
        cases result with
        | error e =>
            have ends : Provisions c rt cipher request id draw others w (.error e, _) :=
              .failed 2 checked
            rw [created] at ends
            exact ends
        | ok answer =>
            simp only [Tx.exec_bind, World.exec_meanwhile, World.exec_flush]
            cases inserted : (others 2 (afterOthers others w.db 2)).insertMailbox
              (newMailbox cipher id draw target.domain target.address request.displayName) with
            | error e =>
                have ends : Provisions c rt cipher request id draw others w (.error e, _) :=
                  .failed 3 checked
                rw [created] at ends
                exact ends
            | ok db => exact .done checked created inserted

/-- What a flush of a new mailbox has checked. -/
theorem insertMailbox_ok {db db' : Database} {m : Mailbox} (h : db.insertMailbox m = .ok db') :
    db.mailboxesNamed m.address = [] ∧ ∃ mailboxes, db.mailboxes.insert? m = some mailboxes ∧
      db' = { db with mailboxes := mailboxes } := by
  unfold Database.insertMailbox at h
  split at h
  · cases h
  split at h
  · cases h
  rename_i taken
  split at h
  · rename_i mailboxes inserted
    cases h
    exact ⟨by simpa using taken, mailboxes, inserted, rfl⟩
  · cases h

theorem promote_mailboxes (db : Database) (domain : Domain) :
    (db.promote domain).mailboxes = db.mailboxes := by
  unfold Database.promote
  split <;> rfl

theorem sessionScope_rotate (cipher : MailboxCipher) (address : String) (draw : PasswordDraw)
    (w : World σ) :
    sessionScope (rotateMailboxPassword c cipher address draw) w =
      match scalarOneOrNone (w.db.mailboxesNamed address) with
      | .error e => (.error e, w)
      | .ok none => (.error (.provisioning s!"mailbox not tracked: {address}"), w)
      | .ok (some mailbox) =>
          match c.updateEmailAccount (partition '@' address).2 (partition '@' address).1
            { password := some draw.password.text } w.far with
          | (.error e, far) => (.error e, { w with far := far })
          | (.ok _, far) => (.ok draw.password.text,
              { db := w.db.setPassword mailbox.id
                  (cipher.encrypt draw.vector draw.password.text)
                far := far }) := by
  simp only [sessionScope, rotateMailboxPassword, Tx.exec_bind, World.exec_database,
    Tx.exec_lift, Session.begin]
  cases scalarOneOrNone (w.db.mailboxesNamed address) with
  | error e => rfl
  | ok found =>
      cases found with
      | none => rfl
      | some mailbox =>
          simp only [Tx.exec_bind, World.exec_call]
          generalize c.updateEmailAccount (partition '@' address).2 (partition '@' address).1
            { password := some draw.password.text } w.far = run
          obtain ⟨result, far⟩ := run
          cases result with
          | error e => rfl
          | ok answer => rfl

end Provision
end Emaild
