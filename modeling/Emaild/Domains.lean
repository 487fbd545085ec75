import Emaild.Dnscheck
import Emaild.Management
import Emaild.Mxroute

/-!
The life of a domain: what the provider asks to be published, what a verification
makes of a domain's status, and how a domain comes to be tracked. A change of a
row is written when its session is flushed, and only the columns are written whose
values differ from the ones that were loaded.
-/
namespace Emaild
open Relational Text

/-! The records to publish. -/

/-- A text at the domain itself. -/
def apex (value : Json) : DnsRecord :=
  { type := "TXT", name := .string "@", value := value, priority := "" }

def dmarcRecord : DnsRecord :=
  { type := "TXT", name := .string "_dmarc", value := .string "v=DMARC1; p=none;", priority := "" }

section Records
variable (str : Json → String)

/-- `value.get(key, fallback)` -/
def memberOr (value : Json) (key : String) (fallback : Json) : Except Raised Json :=
  match value.getD? key fallback with
  | some found => .ok found
  | none => .error (.builtin "AttributeError")

def mxToPublish (mx : Json) : Except Raised DnsRecord := do
  return { type := "MX", name := .string "@", value := ← memberOr mx "hostname" (.string "")
           priority := str (← memberOr mx "priority" (.number 10)) }

/-- The value of the key without the provider's quoting. -/
def unquoted (value : String) : String := .ofList (removePair '\\' '"' (stripChar '"' value).toList)

def dkimToPublish (dkim : Json) : Except Raised (List DnsRecord) := do
  let value ← member dkim "value"
  if value.truthy then
    return [{ type := "TXT", name := ← memberOr dkim "name" (.string "x._domainkey")
              value := .string (unquoted (← asText value)), priority := "" }]
  else return []

def tokenToPublish (verification : Json) : Except Raised (List DnsRecord) := do
  let name ← member verification "name"
  if name.truthy then
    return [{ type := "TXT", name := name
              value := ← memberOr verification "value" (.string "domain-verified")
              priority := "" }]
  else return []

/-- `required_dns_records`, which makes no use of the name. -/
def requiredDnsRecords (_ : String) (dnsInfo : Json) : Except Raised (List DnsRecord) := do
  let mx ← (← mxRecords dnsInfo).mapM (mxToPublish str)
  let spf ← sectionMember dnsInfo "spf" "value"
  let dkim ← dkimToPublish ((← member dnsInfo "dkim").orElse (.object []))
  let token ← tokenToPublish ((← member dnsInfo "verification").orElse (.object []))
  return mx ++ (if spf.truthy then [apex spf] else []) ++ dkim ++ token ++ [dmarcRecord]

end Records

/-! The status. -/

/-- `_next_status`, with its note. -/
def nextStatus (current : DomainStatus) (report : DomainDnsReport) (hasMailbox : Bool) :
    DomainStatus × Option String :=
  let failures := ", ".intercalate report.failures
  let byRecords : DomainStatus × Option String :=
    if !report.canSend then
      if report.hadLookupErrors then
        (current, some "DNS lookup errors; status held pending a clean sweep")
      else if current = .ready then
        (.misconfigured, some s!"was ready; now failing: {failures}")
      else (.dnsIncomplete, some s!"missing: {failures}")
    else if !hasMailbox then (.verified, some "DNS complete; awaiting mailbox provisioning")
    else (.ready, none)
  -- `_OPERATOR_CONTROLLED`
  if current = .suspended then (current, some "operator-controlled status left untouched")
  else match report.checks.get? "ownership" with
    | some ownership =>
        if ownership.ok then byRecords
        else if ownership.result = .error then
          (current, some "ownership lookup failed; status held")
        else (.ownershipPending, some "verification TXT not resolving")
    | none => byRecords

/-! The row. -/

def Domain.named (name : String) (d : Domain) : Bool := d.name = name

def Database.domainsNamed (db : Database) (name : String) : List Domain :=
  db.domains.rows.filter (Domain.named name)

def Database.hasMailbox (db : Database) (domainId : Nat) : Bool :=
  db.mailboxes.rows.any fun m => m.domainId = domainId

section Columns
variable (rt : Runtime)

/-- A value bound to a text column of limited length. -/
def bindText (limit : Nat) : Json → Except Raised (Option String)
  | .null => .ok none
  | .string text => if rt.columnTakes limit text then .ok (some text) else .error .dataError
  | _ => .error .dataError

/-- A text column that a value may have been assigned to. -/
def assigned (limit : Nat) (value : Option Json) (loaded : Option String) :
    Except Raised (Option String) :=
  match value with
  | some value => bindText rt limit value
  | none => .ok loaded

def DnsRecord.storable (r : DnsRecord) : Bool :=
  r.name.storable rt.storesText && r.value.storable rt.storesText && rt.storesText r.priority

def RecordCheck.storable (c : RecordCheck) : Bool :=
  c.expected.storable rt.storesText && c.found.all rt.storesText && c.detail.all rt.storesText

end Columns

/-- What a refresh assigns to the columns of the domain it has loaded. Two of them it
may leave alone. -/
structure DomainChanges where
  loaded : Domain
  status : DomainStatus
  smtpHost : Option Json
  requiredRecords : List DnsRecord
  verificationToken : Option Json
  report : DomainDnsReport
  checkedAt : Time

namespace DomainChanges
variable (rt : Runtime) (changes : DomainChanges)

/-- The values of the columns, if the database takes them. -/
def bound : Except Raised Domain := do
  let smtpHost ← assigned rt 253 changes.smtpHost changes.loaded.smtpHost
  let token ← assigned rt 120 changes.verificationToken changes.loaded.verificationToken
  if changes.requiredRecords.all (DnsRecord.storable rt) &&
      changes.report.checks.rows.all (fun c => c.2.storable rt) then
    return { changes.loaded with
      status := changes.status, smtpHost := smtpHost, verificationToken := token
      requiredRecords := some changes.requiredRecords, dnsState := some changes.report.toState
      dnsCheckedAt := some changes.checkedAt }
  else .error .dataError

end DomainChanges

/-- The column of a row that was loaded with one value and is to have another. -/
def written {α : Type} [DecidableEq α] (loaded new row : α) : α := if new = loaded then row else new

/-- `UPDATE domains SET …` with the columns that have changed. -/
def Domain.merge (loaded new row : Domain) : Domain :=
  { row with
    status := written loaded.status new.status row.status
    smtpHost := written loaded.smtpHost new.smtpHost row.smtpHost
    dnsState := written loaded.dnsState new.dnsState row.dnsState
    requiredRecords := written loaded.requiredRecords new.requiredRecords row.requiredRecords
    dnsCheckedAt := written loaded.dnsCheckedAt new.dnsCheckedAt row.dnsCheckedAt
    verificationToken :=
      written loaded.verificationToken new.verificationToken row.verificationToken }

def Database.mergeDomain (db : Database) (loaded new : Domain) : Database :=
  { db with domains := db.domains.modify loaded.id fun d => loaded.merge new d }

/-- What is assigned to a loaded domain and not flushed yet: nothing, what a refresh has
assigned before it raised, or all of it. -/
inductive Unflushed
  | nothing
  | part (loaded : Domain) (smtpHost : Option Json) (requiredRecords : Option (List DnsRecord))
  | all (changes : DomainChanges)

/-- The flush of a domain. -/
def Unflushed.flush (rt : Runtime) (db : Database) : Unflushed → Except Raised Database
  | nothing => return db
  | part loaded smtpHost requiredRecords => do
      let smtpHost ← assigned rt 253 smtpHost loaded.smtpHost
      if requiredRecords.all fun records => records.all (DnsRecord.storable rt) then
        return db.mergeDomain loaded { loaded with
          smtpHost := smtpHost, requiredRecords := requiredRecords.or loaded.requiredRecords }
      else .error .dataError
  | all changes => do return db.mergeDomain changes.loaded (← changes.bound rt)

structure DomainRefresh where
  domain : String
  previous : DomainStatus
  current : DomainStatus
  report : Option DomainDnsReport
  changed : Bool
  note : Option String

/-- `mx_records[0].get("hostname")`, if there is a first record. -/
def firstHost (dnsInfo : Json) : Except Raised (Option Json) := do
  match ← mxRecords dnsInfo with
  | [] => return none
  | mx :: _ => return some (← member mx "hostname")

section Refresh
variable {σ : Type} (c : Mxroute.Client σ) (rt : Runtime)

/-- The columns as a payload and its report leave them. -/
def domainChanges (domainName : String) (domain : Domain) (dnsInfo : Json)
    (report : DomainDnsReport) (status : DomainStatus) (now : Time) :
    Except Raised DomainChanges := do
  let smtpHost ← firstHost dnsInfo
  let requiredRecords ← requiredDnsRecords c.str domainName dnsInfo
  let name ← sectionMember dnsInfo "verification" "name"
  return {
    loaded := domain, status := status, smtpHost := smtpHost
    requiredRecords := requiredRecords
    verificationToken := if name.truthy then some name else none
    report := report, checkedAt := now }

/-- What a refresh has assigned when it raises after the checks. -/
def assignedBefore (domainName : String) (domain : Domain) (dnsInfo : Json) : Unflushed :=
  match firstHost dnsInfo with
  | .error _ => .nothing
  | .ok smtpHost =>
      match requiredDnsRecords c.str domainName dnsInfo with
      | .error _ => .part domain smtpHost none
      | .ok requiredRecords => .part domain smtpHost (some requiredRecords)

/-- `refresh_domain`, with what it leaves to be flushed, also when it raises. Other
transactions may commit before the mailboxes are counted. -/
def refreshDomain (resolver : Resolver) (domainName : String) (now : Time)
    (others : Nat → Database → Database) :
    Tx (World σ) Raised (Except Raised DomainRefresh × Unflushed) := do
  match ← Tx.lift (scalarOneOrNone ((← World.database).domainsNamed domainName)) with
  | none => throw (.lookupError s!"domain not tracked locally: {domainName}")
  | some domain =>
      let previous := domain.status
      match ← World.attempt (c.getDns domainName) with
      | .error (.provider e) =>
          -- the provider is unreachable, which says nothing about DNS
          return (.ok ⟨domainName, previous, previous, none, false,
            some s!"provider error: {e.text}"⟩, .nothing)
      | .error e => throw e
      | .ok dnsInfo =>
          let report ← Tx.lift (verifyDomain rt domainName dnsInfo resolver)
          World.meanwhile (others 0)
          let (current, note) :=
            nextStatus previous report ((← World.database).hasMailbox domain.id)
          match domainChanges c domainName domain dnsInfo report current now with
          | .error e => return (.error e, assignedBefore c domainName domain dnsInfo)
          | .ok changes =>
              return (.ok ⟨domainName, previous, current, some report, current ≠ previous, note⟩,
                .all changes)

/-- `refresh_domain` in a session of its own, which is flushed when it is committed. -/
def sweepDomain (resolver : Resolver) (domainName : String) (now : Time)
    (others : Nat → Database → Database) : Tx (World σ) Raised DomainRefresh := do
  let (result, unflushed) ← refreshDomain c rt resolver domainName now others
  let refresh ← Tx.lift result
  World.meanwhile (others 1)
  World.flush (unflushed.flush rt)
  return refresh

/-! Tracking a domain. -/

/-- The row of a new domain, with what was captured of the provider's answer. -/
def newDomain (id : Nat) (name : String) (captured : Option (List DnsRecord × Json)) :
    Except Raised Domain := do
  let smtpHost ← assigned rt 253 (captured.map Prod.snd) none
  if rt.columnTakes 253 name && captured.all fun r => r.1.all (DnsRecord.storable rt) then
    return { id := id, name := name, status := .added, smtpHost := smtpHost, dnsState := none
             requiredRecords := captured.map Prod.fst }
  else .error .dataError

/-- The flush of a new domain: its name is unique, and the columns are bounded. -/
def Database.insertDomain (db : Database) (id : Nat) (name : String)
    (captured : Option (List DnsRecord × Json)) : Except Raised Database := do
  let domain ← newDomain rt id name captured
  if !(db.domainsNamed name).isEmpty then .error .integrityError
  else match db.domains.insert? domain with
    | some domains => return { db with domains := domains }
    | none => .error .integrityError

/-- What is captured for a new domain of the answer to a request for its records. -/
def captureRecords (domainName : String) :
    Except Raised Json → Except Raised (Option (List DnsRecord × Json))
  | .ok dnsInfo => do
      let requiredRecords ← requiredDnsRecords c.str domainName dnsInfo
      return some (requiredRecords, (← firstHost dnsInfo).getD .null)
  -- the domain is registered either way
  | .error (.provider _) => return none
  | .error e => .error e

/-- A domain that the provider does not list is created there, or adopted if it is there
already. -/
def createUnlessListed (domainName : String) (remote : List Json) (far : σ) :
    Except Raised Unit × σ :=
  if .string domainName ∈ remote then (.ok (), far)
  else match c.createDomain domainName far with
    | (.ok _, far) => (.ok (), far)
    | (.error (.provider (.conflict _)), far) => (.ok (), far)
    | (.error e, far) => (.error e, far)

/-- `add_domain` as far as the provider is concerned. -/
def registerDomain (domainName : String) (far : σ) :
    Except Raised (Option (List DnsRecord × Json)) × σ :=
  match c.listDomains far with
  | (.error e, far) => (.error e, far)
  | (.ok remote, far) =>
      match createUnlessListed c domainName remote far with
      | (.error e, far) => (.error e, far)
      | (.ok _, far) =>
          let (answer, far) := c.getDns domainName far
          (captureRecords c domainName answer, far)

/-- `add_domain`. Other transactions may commit before it flushes, or ends without a flush. -/
def addDomain (rawName : String) (id : Nat) (others : Nat → Database → Database) :
    Tx (World σ) Raised Domain := do
  let domainName := rstripChar '.' (rt.lower (strip rawName))
  match ← Tx.lift (scalarOneOrNone ((← World.database).domainsNamed domainName)) with
  | some existing =>
      World.meanwhile (others 0)
      return existing
  | none =>
      let captured ← World.call (registerDomain c domainName)
      World.meanwhile (others 0)
      World.flush fun db => db.insertDomain rt id domainName captured
      Tx.lift (newDomain rt id domainName captured)

/-- How an addition ends: a row is written, or none. -/
inductive Adds (id : Nat) (others : Nat → Database → Database) (w : World σ) :
    Except Raised Domain × World σ → Prop
  | idle {result : Except Raised Domain} {db : Database} {far : σ}
      (commits : result.isOk = true → db = others 0 w.db) :
      Adds id others w (result, ⟨db, far⟩)
  | added {name : String} {captured : Option (List DnsRecord × Json)} {domain : Domain}
      {db : Database} {far : σ} (row : newDomain rt id name captured = .ok domain)
      (inserted : (others 0 w.db).insertDomain rt id name captured = .ok db) :
      Adds id others w (.ok domain, ⟨db, far⟩)

theorem addDomain_cases (rawName : String) (id : Nat) (others : Nat → Database → Database)
    (w : World σ) :
    Adds rt id others w (sessionScope (addDomain c rt rawName id others) w) := by
  have refused {e : Raised} {w' : World σ} : Adds rt id others w (.error e, w') := .idle nofun
  simp only [sessionScope, addDomain, Tx.exec_bind, World.exec_database, Tx.exec_lift,
    Session.begin]
  cases scalarOneOrNone (w.db.domainsNamed (rstripChar '.' (rt.lower (strip rawName)))) with
  | error e => exact refused
  | ok found =>
      cases found with
      | some existing => exact .idle fun _ => rfl
      | none =>
          simp only [Tx.exec_bind, World.exec_call]
          generalize rstripChar '.' (rt.lower (strip rawName)) = name
          cases (registerDomain c name w.far).1 with
          | error e => exact refused
          | ok captured =>
              simp only [World.exec_meanwhile, World.exec_flush]
              cases inserted : (others 0 w.db).insertDomain rt id name captured with
              | error e => exact refused
              | ok db =>
                  obtain ⟨domain, row, _⟩ := ok_of_bind_ok inserted
                  simp only [Tx.exec_lift, row]
                  exact .added row inserted

/-! Advice on an addition that has failed. -/

/-- `domain_add_advice` -/
def domainAddAdvice (e : MxrouteError) (domain : String) : String :=
  match e with
  | .auth _ =>
      "The credentials were rejected, so this is not a DNS problem.\n" ++
      "Check EMAILD_MXROUTE_* in the .env beside compose.yaml:\n" ++
      "  EMAILD_MXROUTE_USERNAME is the account username -- not your\n" ++
      "    email address, and not the domain.\n" ++
      "  EMAILD_MXROUTE_SERVER is the mail server hostname, for example\n" ++
      "    chocobo.mxrouting.net -- not api.mxroute.com.\n" ++
      "\nTest them directly (200 means good, 401 means still wrong):\n" ++
      "  curl -s -o /dev/null -w '%\x7bhttp_code\x7d\\n' \\\n" ++
      "    -H \"X-Server: <server>\" -H \"X-Username: <username>\" \\\n" ++
      "    -H \"X-API-Key: <key>\" https://api.mxroute.com/domains"
  | .conflict _ =>
      s!"{domain} already exists on the MXRoute account. Adding it here " ++
      "only starts tracking it locally; it is not created again."
  | _ =>
      "If the domain is new to this account, the ownership TXT record may " ++
      "not be resolving yet. Run 'domains token' and publish it first."

/-- The record that the account asks for before a domain can be added. -/
structure VerificationRecord where
  type : Json
  name : Json
  value : Json

def verificationRecord (data : Json) : Except Raised VerificationRecord := do
  let record := (← member data "record").orElse (.object [])
  return {
    type := ← memberOr record "type" (.string "TXT")
    name := ← memberOr record "name" (.string "")
    value := ← memberOr record "value" (.string "domain-verified") }

/-- `get_verification_record` -/
def getVerificationRecord (far : σ) : Except Raised VerificationRecord × σ :=
  let (data, far) := c.getVerificationKey far
  (data >>= verificationRecord, far)

/-- `add_failure_message`: the advice, with the record if ownership may be the cause. -/
def addFailureMessage (e : MxrouteError) (domain : String) (far : σ) : String × σ :=
  let advice := domainAddAdvice e domain
  match e with
  | .auth _ | .conflict _ => (advice, far)
  | _ =>
      match getVerificationRecord c far with
      | (.error _, far) => (advice, far)
      | (.ok record, far) =>
          (s!"{advice}\n\n" ++
            "Publish this TXT record, wait 5-15 minutes, then add the domain again:\n" ++
            s!"  Name:  {c.str record.name}\n" ++
            s!"  Value: {c.str record.value}", far)

/-! What a sweep leaves behind. -/

/-- What a refresh makes of a payload for the domain it has loaded: the row as it is to
be. -/
def assess (resolver : Resolver) (domainName : String) (now : Time) (domain : Domain)
    (dnsInfo : Json) (hasMailbox : Bool) : Except Raised Domain := do
  let report ← verifyDomain rt domainName dnsInfo resolver
  let changes ← domainChanges c domainName domain dnsInfo report
    (nextStatus domain.status report hasMailbox).1 now
  changes.bound rt

theorem domainChanges_loaded {domainName : String} {domain : Domain} {dnsInfo : Json}
    {report : DomainDnsReport} {status : DomainStatus} {now : Time} {changes : DomainChanges}
    (h : domainChanges c domainName domain dnsInfo report status now = .ok changes) :
    changes.loaded = domain := by
  obtain ⟨_, _, h⟩ := ok_of_bind_ok h
  obtain ⟨_, _, h⟩ := ok_of_bind_ok h
  obtain ⟨_, _, h⟩ := ok_of_bind_ok h
  cases h
  rfl

/-- How a sweep ends: a row is written if the domain is tracked, the provider answers with
a payload, and that can be assessed. -/
inductive Sweeps (resolver : Resolver) (domainName : String) (now : Time)
    (others : Nat → Database → Database) (w : World σ) :
    Except Raised DomainRefresh × World σ → Prop
  | idle {result : Except Raised DomainRefresh} {db : Database} {far : σ}
      (alone : (∀ n db, others n db = db) → db = w.db)
      (commits : result.isOk = true → db = others 1 w.db)
      (nothing : ∀ domain dnsInfo far new, w.db.domainsNamed domainName = [domain] →
        c.getDns domainName w.far = (.ok dnsInfo, far) →
          assess c rt resolver domainName now domain dnsInfo
            ((others 0 w.db).hasMailbox domain.id) ≠ .ok new) :
      Sweeps resolver domainName now others w (result, ⟨db, far⟩)
  | written {domain : Domain} {dnsInfo : Json} {far : σ} {new : Domain} {refresh : DomainRefresh}
      (tracked : w.db.domainsNamed domainName = [domain])
      (answered : c.getDns domainName w.far = (.ok dnsInfo, far))
      (assessed : assess c rt resolver domainName now domain dnsInfo
        ((others 0 w.db).hasMailbox domain.id) = .ok new) :
      Sweeps resolver domainName now others w
        (.ok refresh, ⟨(others 1 (others 0 w.db)).mergeDomain domain new, far⟩)

/-- The cases once the provider has answered. -/
theorem sweeps_of_answer (resolver : Resolver) (domainName : String) (now : Time)
    (others : Nat → Database → Database) (w : World σ) {domain : Domain} {dnsInfo : Json} {far : σ}
    (tracked : w.db.domainsNamed domainName = [domain])
    (answered : c.getDns domainName w.far = (.ok dnsInfo, far))
    {result : Except Raised DomainRefresh × World σ}
    (ends : (result.2.far = far ∧ ((∀ n db, others n db = db) → result.2.db = w.db) ∧
        (result.1.isOk = true → result.2.db = others 1 w.db) ∧
        ∀ new, assess c rt resolver domainName now domain dnsInfo
          ((others 0 w.db).hasMailbox domain.id) ≠ .ok new) ∨
      ∃ refresh new, assess c rt resolver domainName now domain dnsInfo
          ((others 0 w.db).hasMailbox domain.id) = .ok new ∧
        result = (.ok refresh, ⟨(others 1 (others 0 w.db)).mergeDomain domain new, far⟩)) :
    Sweeps c rt resolver domainName now others w result := by
  rcases ends with ⟨_, alone, commits, nothing⟩ | ⟨refresh, new, assessed, rfl⟩
  · refine .idle alone commits fun domain' dnsInfo' far' new tracked' answered' => ?_
    cases tracked.symm.trans tracked'
    cases answered.symm.trans answered'
    exact nothing new
  · exact .written tracked answered assessed

theorem sweepDomain_cases (resolver : Resolver) (domainName : String) (now : Time)
    (others : Nat → Database → Database) (w : World σ) :
    Sweeps c rt resolver domainName now others w
      (sessionScope (sweepDomain c rt resolver domainName now others) w) := by
  simp only [sessionScope, sweepDomain, refreshDomain, Tx.exec_bind, World.exec_database,
    Tx.exec_lift, Session.begin]
  cases looked : scalarOneOrNone (w.db.domainsNamed domainName) with
  | error e =>
      refine .idle (fun _ => rfl) (fun ok => absurd ok Bool.false_ne_true)
        fun domain _ _ _ tracked => ?_
      rw [tracked] at looked
      cases looked
  | ok found =>
      cases found with
      | none =>
          refine .idle (fun _ => rfl) (fun ok => absurd ok Bool.false_ne_true)
            fun domain _ _ _ tracked => ?_
          rw [tracked] at looked
          cases looked
      | some domain =>
          have tracked := scalarOneOrNone_some.mp looked
          simp only [Tx.exec_bind, World.exec_attempt]
          cases answered : c.getDns domainName w.far with
          | mk result far =>
              cases result with
              | error e =>
                  cases e with
                  | provider e =>
                      refine .idle (fun alone => alone 1 w.db) (fun _ => rfl) ?_
                      rintro _ _ _ _ _ other
                      rw [answered] at other
                      cases other
                  | _ => 
                      refine .idle (fun _ => rfl) (fun ok => absurd ok Bool.false_ne_true) ?_
                      rintro _ _ _ _ _ other
                      rw [answered] at other
                      cases other
              | ok dnsInfo =>
                  refine sweeps_of_answer c rt resolver domainName now others w tracked answered ?_
                  simp only [Tx.exec_bind, Tx.exec_lift]
                  cases verified : verifyDomain rt domainName dnsInfo resolver with
                  | error e =>
                      dsimp only
                      refine .inl ⟨rfl, fun _ => rfl, fun ok => absurd ok Bool.false_ne_true,
                        fun new assessed => ?_⟩
                      simp [assess, verified, bind, Except.bind] at assessed
                  | ok report =>
                      simp only [World.exec_meanwhile, World.exec_database]
                      cases changed : domainChanges c domainName domain dnsInfo report
                          (nextStatus domain.status report
                            ((others 0 w.db).hasMailbox domain.id)).1 now with
                      | error e =>
                          dsimp only
                          refine .inl ⟨rfl, fun alone => alone 0 w.db,
                            fun ok => absurd ok Bool.false_ne_true, fun new assessed => ?_⟩
                          simp [assess, verified, changed, bind, Except.bind] at assessed
                      | ok changes =>
                          have assessed : assess c rt resolver domainName now domain dnsInfo
                              ((others 0 w.db).hasMailbox domain.id) = changes.bound rt := by
                            simp [assess, verified, changed, bind, Except.bind]
                          obtain rfl := domainChanges_loaded c changed
                          simp only [Tx.exec_pure, World.exec_flush, Unflushed.flush]
                          cases bound : changes.bound rt with
                          | error e =>
                              refine .inl ⟨rfl, fun alone => ?_,
                                fun ok => absurd ok Bool.false_ne_true, fun new same => ?_⟩
                              · exact (alone 1 _).trans (alone 0 _)
                              · rw [assessed, bound] at same
                                cases same
                          | ok new => exact .inr ⟨_, new, assessed.trans bound, rfl⟩

end Refresh
end Emaild
