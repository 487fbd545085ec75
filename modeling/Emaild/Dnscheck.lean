import Emaild.Errors
import Emaild.Models
import Emaild.Relational.Session

/-!
DNS verification: the records that are published against those the provider asks
for. What the resolver does is an input. The five checks of a report make one
lookup each, at most, and each has its own.
-/
namespace Emaild
open Relational Text

inductive CheckResult
  | pass | fail | missing | error
  deriving DecidableEq, Repr

def CheckResult.value : CheckResult → String
  | pass => "pass"
  | fail => "fail"
  | missing => "missing"
  | error => "error"

/-- What is shown for a check. `expected` is whatever the provider has given. -/
structure RecordCheck where
  name : String
  result : CheckResult
  expected : Json := .null
  found : List String := []
  detail : Option String := none
  deriving DecidableEq

def RecordCheck.ok (c : RecordCheck) : Bool := c.result = .pass

/-- A check as `to_dict` writes it. -/
def RecordCheck.toState (c : RecordCheck) : CheckState where
  result := c.result.value
  expected := c.expected
  found := c.found
  detail := c.detail

structure DomainDnsReport where
  domain : String
  checks : Dict String RecordCheck

namespace DomainDnsReport
variable (r : DomainDnsReport)

/-- `REQUIRED` -/
def required : List String := ["mx", "spf", "dkim"]

def canSend : Bool := required.all fun k => (r.checks.get? k).all RecordCheck.ok

def hadLookupErrors : Bool := r.checks.rows.any fun c => c.2.result = .error

def failures : List String := required.filter fun k => (r.checks.get? k).any fun c => !c.ok

/-- `to_dict` -/
def toState : DnsState where
  canSend := r.canSend
  checks := r.checks.rows.map fun c => (c.1, c.2.toState)

end DomainDnsReport

/-- What a lookup of records of one type brings: there are none, it fails, it brings
records, or something leaves it that is no failure of a lookup. -/
inductive Lookup (α : Type)
  | absent
  | failed (kind description : String)
  | answered (records : List α)
  | raised (kind : String)
  deriving DecidableEq

structure MxRecord where
  preference : Nat
  exchange : String
  deriving DecidableEq

/-- The strings of a TXT record. -/
structure TxtRecord where
  strings : List (List UInt8)
  deriving DecidableEq

/-- `"".join(part.decode() for part in txt.strings)` -/
def TxtRecord.text? (r : TxtRecord) : Option String :=
  (r.strings.mapM decodeUtf8).map fun parts => .ofList parts.flatten

/-- `f"{mx.preference} {str(mx.exchange).rstrip('.')}"` -/
def MxRecord.text (r : MxRecord) : String :=
  let exchange := rstripChar '.' r.exchange
  s!"{r.preference} {exchange}"

/-- `_resolve`: the values, or the text of an error. -/
def resolve {α : Type} (spell : α → Option String) :
    Lookup α → Except Raised (Except String (List String))
  | .absent => .ok (.ok [])
  | .failed kind description => .ok (.error s!"{kind}: {description}")
  | .answered records =>
      match records.mapM spell with
      | some values => .ok (.ok values)
      | none => .error (.builtin "UnicodeDecodeError")
  | .raised kind => .error (.builtin kind)

def resolveMx (found : Lookup MxRecord) : Except Raised (Except String (List String)) :=
  resolve (fun r => some r.text) found

def resolveTxt (found : Lookup TxtRecord) : Except Raised (Except String (List String)) :=
  resolve TxtRecord.text? found

/-- The lookups of a report, by the name that is looked up. -/
structure Resolver where
  mx : String → Lookup MxRecord
  spf : String → Lookup TxtRecord
  dkim : String → Lookup TxtRecord
  dmarc : String → Lookup TxtRecord
  ownership : String → Lookup TxtRecord

/-! Operations on decoded documents, with what the interpreter raises. -/

/-- `value.get(key)` -/
def member (value : Json) (key : String) : Except Raised Json :=
  match value.get? key with
  | some found => .ok found
  | none => .error (.builtin "AttributeError")

/-- A value that is used as a string. -/
def asText (value : Json) : Except Raised String :=
  match value with
  | .string text => .ok text
  | _ => .error (.builtin "AttributeError")

theorem asText_ok {value : Json} {text : String} (h : asText value = .ok text) :
    value = .string text := by
  unfold asText at h
  split at h <;> cases h
  rfl

/-- `for item in value` -/
def iterate (value : Json) : Except Raised (List Json) :=
  match value.items? with
  | some items => .ok items
  | none => .error (.builtin "TypeError")

/-- `separator.join(values)` -/
def join (separator : String) (values : List Json) : Except Raised String :=
  match values.mapM Json.text? with
  | some texts => .ok (separator.intercalate texts)
  | none => .error (.builtin "TypeError")

/-- `_normalise_txt` -/
def normaliseTxt (value : String) : String :=
  strip (.ofList (value.toList.filter fun c => c ≠ '"' ∧ c ≠ '\\' ∧ c ≠ ' ' ∧ c ≠ '\t'))

section Checks
variable (rt : Runtime)

/-- The host of a value that `_resolve` has found. -/
def foundHost (value : String) : Except Raised String :=
  match afterWord value with
  | some host => .ok (rt.lower host)
  | none => .error .indexError

/-- The host that has to be among the published ones. -/
def primaryHost : List Json → Except Raised String
  | [] => .ok ""
  | host :: _ => do return rstripChar '.' (rt.lower (← asText host))

def checkMx (domain : String) (expectedHosts : List Json) (resolver : String → Lookup MxRecord) :
    Except Raised RecordCheck := do
  match ← resolveMx (resolver domain) with
  | .error error => return { name := "mx", result := .error, detail := some error }
  | .ok [] =>
      return { name := "mx", result := .missing, expected := .string (← join ", " expectedHosts) }
  | .ok values =>
      let foundHosts ← (values.filter (contains " ")).mapM (foundHost rt)
      let primary ← primaryHost rt expectedHosts
      if primary ≠ "" ∧ primary ∈ foundHosts then
        return { name := "mx", result := .pass, expected := .string primary, found := values }
      else
        return { name := "mx", result := .fail, expected := .string primary, found := values
                 detail := some "primary MX not published" }

/-- The published texts that begin like a policy record. -/
def policyRecords (version : String) (values : List String) : List String :=
  values.filter fun v => startsWith version (rt.lower (strip v))

def checkSpf (domain : String) (expectedValue : Json) (resolver : String → Lookup TxtRecord) :
    Except Raised RecordCheck := do
  match ← resolveTxt (resolver domain) with
  | .error error => return { name := "spf", result := .error, detail := some error }
  | .ok values =>
      match policyRecords rt "v=spf1" values with
      | [] => return { name := "spf", result := .missing, expected := expectedValue }
      | [published] =>
          if contains "include:mxroute.com" (rt.lower (normaliseTxt published)) then
            return { name := "spf", result := .pass, expected := expectedValue
                     found := [published] }
          else
            return { name := "spf", result := .fail, expected := expectedValue
                     found := [published], detail := some "SPF does not authorise mxroute.com" }
      | records =>
          return { name := "spf", result := .fail, expected := expectedValue, found := records
                   detail := some
                     "multiple SPF records published; RFC 7208 requires exactly one" }

/-- Where a record is looked up that the provider names. -/
def qualified (name domain : String) : String :=
  if endsWith domain name then name else s!"{name}.{domain}"

/-- What is said of published keys none of which is the wanted one. -/
def dkimMismatch (want expected : String) (values : List String) : String :=
  if values.any fun published => startsWith (clip 60 (normaliseTxt published)) want &&
      decide (published.length < expected.length) then
    "published DKIM appears truncated (record split or quoted incorrectly)"
  else "published DKIM does not match the provider's key"

def checkDkim (domain : String) (selectorName expectedValue : Json)
    (resolver : String → Lookup TxtRecord) : Except Raised RecordCheck := do
  if !selectorName.truthy || !expectedValue.truthy then
    return { name := "dkim", result := .missing
             detail := some "provider has not generated a DKIM key for this domain" }
  else
    let fqdn := qualified (← asText selectorName) domain
    match ← resolveTxt (resolver fqdn) with
    | .error error =>
        return { name := "dkim", result := .error, expected := .string fqdn, detail := some error }
    | .ok [] => return { name := "dkim", result := .missing, expected := .string fqdn }
    | .ok values =>
        let expected ← asText expectedValue
        let want := normaliseTxt expected
        match values.find? fun published => normaliseTxt published = want with
        | some published =>
            return { name := "dkim", result := .pass, expected := .string fqdn
                     found := [s!"{published.length} chars"] }
        | none =>
            return { name := "dkim", result := .fail, expected := .string fqdn
                     found := values.map fun v => s!"{v.length} chars"
                     detail := some (dkimMismatch want expected values) }

def checkDmarc (domain : String) (resolver : String → Lookup TxtRecord) :
    Except Raised RecordCheck := do
  match ← resolveTxt (resolver s!"_dmarc.{domain}") with
  | .error error => return { name := "dmarc", result := .error, detail := some error }
  | .ok values =>
      match policyRecords rt "v=dmarc1" values with
      | [] =>
          return { name := "dmarc", result := .missing
                   detail := some
                     "MXRoute does not supply DMARC; author one (start at p=none)" }
      | dmarc => return { name := "dmarc", result := .pass, found := dmarc }

def checkOwnership (domain : String) (tokenName : Json) (resolver : String → Lookup TxtRecord) :
    Except Raised RecordCheck := do
  if !tokenName.truthy then
    return { name := "ownership", result := .missing, detail := some "no verification token known" }
  else
    let fqdn := qualified (← asText tokenName) domain
    match ← resolveTxt (resolver fqdn) with
    | .error error =>
        return { name := "ownership", result := .error, expected := .string fqdn
                 detail := some error }
    | .ok values =>
        if values.any fun v => normaliseTxt v = "domain-verified" then
          return { name := "ownership", result := .pass, expected := .string fqdn }
        else
          return { name := "ownership", result := if values.isEmpty then .missing else .fail
                   expected := .string fqdn, found := values }

/-! What the payload asks for. -/

/-- `dns_info.get("mx_records") or []` -/
def mxRecords (dnsInfo : Json) : Except Raised (List Json) := do
  iterate ((← member dnsInfo "mx_records").orElse (.array []))

/-- `(dns_info.get(section) or {}).get(key)` -/
def sectionMember (dnsInfo : Json) (name key : String) : Except Raised Json := do
  member ((← member dnsInfo name).orElse (.object [])) key

def mxHosts (dnsInfo : Json) : Except Raised (List Json) := do
  return (← (← mxRecords dnsInfo).mapM fun r => member r "hostname").filter Json.truthy

/-- What a payload asks for. -/
structure DnsRequirements where
  hosts : List Json
  spf : Json
  selectorName : Json
  dkimValue : Json
  tokenName : Json

def dnsRequirements (dnsInfo : Json) : Except Raised DnsRequirements := do
  return {
    hosts := ← mxHosts dnsInfo
    spf := ← sectionMember dnsInfo "spf" "value"
    selectorName := ← sectionMember dnsInfo "dkim" "name"
    dkimValue := ← sectionMember dnsInfo "dkim" "value"
    tokenName := ← sectionMember dnsInfo "verification" "name" }

/-- Where each of the requirements is read. -/
structure DnsRequirements.ReadFrom (q : DnsRequirements) (dnsInfo : Json) : Prop where
  hosts : mxHosts dnsInfo = .ok q.hosts
  spf : sectionMember dnsInfo "spf" "value" = .ok q.spf
  selectorName : sectionMember dnsInfo "dkim" "name" = .ok q.selectorName
  dkimValue : sectionMember dnsInfo "dkim" "value" = .ok q.dkimValue
  tokenName : sectionMember dnsInfo "verification" "name" = .ok q.tokenName

theorem dnsRequirements_eq_ok {dnsInfo : Json} {q : DnsRequirements} :
    dnsRequirements dnsInfo = .ok q ↔ q.ReadFrom dnsInfo := by
  constructor
  · intro asked
    obtain ⟨hosts, hhosts, asked⟩ := ok_of_bind_ok asked
    obtain ⟨spf, hspf, asked⟩ := ok_of_bind_ok asked
    obtain ⟨selectorName, hname, asked⟩ := ok_of_bind_ok asked
    obtain ⟨dkimValue, hvalue, asked⟩ := ok_of_bind_ok asked
    obtain ⟨tokenName, htoken, asked⟩ := ok_of_bind_ok asked
    cases asked
    exact ⟨hhosts, hspf, hname, hvalue, htoken⟩
  · intro read
    simp only [dnsRequirements, bind, Except.bind, read.hosts, read.spf, read.selectorName,
      read.dkimValue, read.tokenName]
    rfl

/-- The report on five checks. -/
def reportOf (domain : String) (mx spf dkim dmarc ownership : RecordCheck) : DomainDnsReport where
  domain := domain
  checks :=
    { rows := [("mx", mx), ("spf", spf), ("dkim", dkim), ("dmarc", dmarc), ("ownership", ownership)]
      nodup := by simp }

section Report
variable (domain : String) (mx spf dkim dmarc ownership : RecordCheck)

@[simp] theorem ownership_reportOf :
    (reportOf domain mx spf dkim dmarc ownership).checks.get? "ownership" = some ownership := rfl

@[simp] theorem canSend_reportOf :
    (reportOf domain mx spf dkim dmarc ownership).canSend = (mx.ok && (spf.ok && dkim.ok)) :=
  congrArg (mx.ok && ·) (congrArg (spf.ok && ·) (Bool.and_true _))

@[simp] theorem hadLookupErrors_reportOf :
    (reportOf domain mx spf dkim dmarc ownership).hadLookupErrors = true ↔
      mx.result = .error ∨ spf.result = .error ∨ dkim.result = .error ∨ dmarc.result = .error ∨
        ownership.result = .error := by
  simp [DomainDnsReport.hadLookupErrors, reportOf]

end Report

/-- `verify_domain`. If several checks raise, what is raised first leaves it; here that is
the first of them. -/
def verifyDomain (domain : String) (dnsInfo : Json) (resolver : Resolver) :
    Except Raised DomainDnsReport := do
  let q ← dnsRequirements dnsInfo
  return reportOf domain
    (← checkMx rt domain q.hosts resolver.mx)
    (← checkSpf rt domain q.spf resolver.spf)
    (← checkDkim domain q.selectorName q.dkimValue resolver.dkim)
    (← checkDmarc rt domain resolver.dmarc)
    (← checkOwnership domain q.tokenName resolver.ownership)

/-! What the results of the checks mean. -/

/-- The result of a check that has made its lookup: an error if the lookup has failed, else
a pass exactly if the values do. -/
inductive Judged (good : List String → Bool) :
    Except Raised (Except String (List String)) → CheckResult → Prop
  | failed (error : String) : Judged good (.ok (.error error)) .error
  | settled {values : List String} {result : CheckResult} (noError : result ≠ .error)
      (passes : result = .pass ↔ good values = true) : Judged good (.ok (.ok values)) result

/-- One of the hosts is among the published ones. -/
def publishesHost (host : Json) (values : List String) : Bool :=
  match host with
  | .string host =>
      let wanted := rstripChar '.' (rt.lower host)
      decide (wanted ≠ "") && values.any fun v =>
        contains " " v && (afterWord v).any fun found => rt.lower found = wanted
  | _ => false

/-- The first of the hosts is among the published ones. -/
def publishesPrimary (hosts : List Json) (values : List String) : Bool :=
  hosts.head?.any fun host => publishesHost rt host values

/-- There is one SPF record, and it includes the provider's. -/
def authorisesProvider (values : List String) : Bool :=
  match policyRecords rt "v=spf1" values with
  | [published] => contains "include:mxroute.com" (rt.lower (normaliseTxt published))
  | _ => false

/-- The text is among the published ones, two spellings of it apart. -/
def publishesValue (wanted : Json) (values : List String) : Bool :=
  match wanted with
  | .string wanted => values.any fun v => normaliseTxt v = normaliseTxt wanted
  | _ => false

def publishesToken (values : List String) : Bool :=
  values.any fun v => normaliseTxt v = "domain-verified"

theorem foundHost_ok {value host : String} :
    foundHost rt value = .ok host ↔ (afterWord value).map rt.lower = some host := by
  unfold foundHost
  cases afterWord value with
  | none => simp
  | some word => simp

theorem mem_of_mapM_foundHost {values hosts : List String}
    (h : values.mapM (foundHost rt) = .ok hosts) (host : String) :
    host ∈ hosts ↔ ∃ v ∈ values, (afterWord v).map rt.lower = some host := by
  simp only [mem_of_mapM_ok h, foundHost_ok]

theorem publishesPrimary_nil (hosts : List Json) : publishesPrimary rt hosts [] = false := by
  cases hosts with
  | nil => rfl
  | cons host rest => cases host <;> simp [publishesPrimary, publishesHost]

theorem checkMx_judged {domain : String} {hosts : List Json}
    {resolver : String → Lookup MxRecord} {c : RecordCheck}
    (h : checkMx rt domain hosts resolver = .ok c) :
    Judged (publishesPrimary rt hosts) (resolveMx (resolver domain)) c.result := by
  obtain ⟨found, looked, h⟩ := ok_of_bind_ok h
  rw [looked]
  split at h
  · cases h
    exact .failed _
  · obtain ⟨texts, _, h⟩ := ok_of_bind_ok h
    cases h
    exact .settled (by simp) (by simp [publishesPrimary_nil])
  · rename_i values _
    obtain ⟨foundHosts, spelled, h⟩ := ok_of_bind_ok h
    obtain ⟨primary, named, h⟩ := ok_of_bind_ok h
    have published : publishesPrimary rt hosts values = true ↔
        primary ≠ "" ∧ primary ∈ foundHosts := by
      rw [mem_of_mapM_foundHost rt spelled]
      cases hosts with
      | nil =>
          cases named
          simp [publishesPrimary]
      | cons host rest =>
          obtain ⟨text, isText, named⟩ := ok_of_bind_ok named
          obtain rfl := asText_ok isText
          cases named
          simp [publishesPrimary, publishesHost, and_assoc, Option.any_eq_true]
    split at h
    · rename_i good
      cases h
      exact .settled (by simp) (by simpa using published.mpr good)
    · rename_i bad
      cases h
      exact .settled (by simp) (by simpa using fun all => bad (published.mp all))

theorem checkSpf_judged {domain : String} {expected : Json}
    {resolver : String → Lookup TxtRecord} {c : RecordCheck}
    (h : checkSpf rt domain expected resolver = .ok c) :
    Judged (authorisesProvider rt) (resolveTxt (resolver domain)) c.result := by
  obtain ⟨found, looked, h⟩ := ok_of_bind_ok h
  rw [looked]
  split at h
  · cases h
    exact .failed _
  · split at h
    · rename_i unpublished
      cases h
      exact .settled (by simp) (by simp [authorisesProvider, unpublished])
    · rename_i published one
      split at h
      · rename_i authorised
        cases h
        exact .settled (by simp) (by simp [authorisesProvider, one, authorised])
      · rename_i unauthorised
        cases h
        exact .settled (by simp) (by simp [authorisesProvider, one, unauthorised])
    · rename_i several
      cases h
      refine .settled (by simp) ?_
      unfold authorisesProvider
      split
      · rename_i one
        exact (several _ one).elim
      · simp

theorem checkDmarc_judged {domain : String} {resolver : String → Lookup TxtRecord}
    {c : RecordCheck} (h : checkDmarc rt domain resolver = .ok c) :
    Judged (fun values => !(policyRecords rt "v=dmarc1" values).isEmpty)
      (resolveTxt (resolver s!"_dmarc.{domain}")) c.result := by
  obtain ⟨found, looked, h⟩ := ok_of_bind_ok h
  rw [looked]
  split at h
  · cases h
    exact .failed _
  · split at h
    · rename_i unpublished
      cases h
      exact .settled (by simp) (by simp [unpublished])
    · rename_i published
      cases h
      exact .settled (by simp) (by simpa using published)

/-- Without a name or a value there is nothing to look up. -/
theorem checkDkim_judged {domain : String} {selectorName key : Json}
    {resolver : String → Lookup TxtRecord} {c : RecordCheck}
    (h : checkDkim domain selectorName key resolver = .ok c) :
    ((selectorName.truthy && key.truthy) = false ∧ c.result = .missing) ∨
      ∃ name, selectorName = .string name ∧ (selectorName.truthy && key.truthy) = true ∧
        Judged (publishesValue key) (resolveTxt (resolver (qualified name domain))) c.result := by
  unfold checkDkim at h
  split at h
  · rename_i unnamed
    cases h
    refine .inl ⟨?_, rfl⟩
    cases there : selectorName.truthy <;> simp_all
  · rename_i named
    obtain ⟨name, isText, looks⟩ := ok_of_bind_ok h
    obtain rfl := asText_ok isText
    refine .inr ⟨name, rfl, by simpa using named, ?_⟩
    obtain ⟨found, looked, h⟩ := ok_of_bind_ok looks
    rw [looked]
    split at h
    · cases h
      exact .failed _
    · cases h
      refine .settled (by simp) ?_
      unfold publishesValue
      split <;> simp
    · rename_i values _
      obtain ⟨expected, isText, judges⟩ := ok_of_bind_ok h
      obtain rfl := asText_ok isText
      dsimp only at judges
      split at judges
      · rename_i published first
        cases judges
        refine .settled (by simp) ?_
        have good := List.find?_some first
        simpa [publishesValue]
          using ⟨published, List.mem_of_find?_eq_some first, by simpa using good⟩
      · rename_i unequal
        cases judges
        refine .settled (by simp) ?_
        simpa [publishesValue] using unequal

theorem checkOwnership_judged {domain : String} {tokenName : Json}
    {resolver : String → Lookup TxtRecord} {c : RecordCheck}
    (h : checkOwnership domain tokenName resolver = .ok c) :
    (tokenName.truthy = false ∧ c.result = .missing) ∨
      ∃ name, tokenName = .string name ∧ tokenName.truthy = true ∧
        Judged publishesToken (resolveTxt (resolver (qualified name domain))) c.result := by
  unfold checkOwnership at h
  split at h
  · rename_i unnamed
    cases h
    exact .inl ⟨by simpa using unnamed, rfl⟩
  · rename_i named
    obtain ⟨name, isText, looks⟩ := ok_of_bind_ok h
    obtain rfl := asText_ok isText
    refine .inr ⟨name, rfl, by simpa using named, ?_⟩
    obtain ⟨found, looked, h⟩ := ok_of_bind_ok looks
    rw [looked]
    split at h
    · cases h
      exact .failed _
    · rename_i values
      split at h
      · rename_i good
        cases h
        exact .settled (by simp) (by simpa [publishesToken] using good)
      · rename_i bad
        cases h
        refine .settled ?_ ?_
        · dsimp only
          split <;> simp
        · dsimp only
          unfold publishesToken
          split <;> simpa using bad

/-- The checks of a report, each with the lookup it has made. -/
structure ChecksMade (domain : String) (q : DnsRequirements) (resolver : Resolver)
    (mx spf dkim dmarc ownership : RecordCheck) : Prop where
  mx : checkMx rt domain q.hosts resolver.mx = .ok mx
  spf : checkSpf rt domain q.spf resolver.spf = .ok spf
  dkim : checkDkim domain q.selectorName q.dkimValue resolver.dkim = .ok dkim
  dmarc : checkDmarc rt domain resolver.dmarc = .ok dmarc
  ownership : checkOwnership domain q.tokenName resolver.ownership = .ok ownership

theorem checked_of_verifyDomain {domain : String} {dnsInfo : Json} {resolver : Resolver}
    {report : DomainDnsReport} (h : verifyDomain rt domain dnsInfo resolver = .ok report) :
    ∃ q mx spf dkim dmarc ownership, dnsRequirements dnsInfo = .ok q ∧
      ChecksMade rt domain q resolver mx spf dkim dmarc ownership ∧
      report = reportOf domain mx spf dkim dmarc ownership := by
  obtain ⟨q, asked, h⟩ := ok_of_bind_ok h
  obtain ⟨mx, hmx, h⟩ := ok_of_bind_ok h
  obtain ⟨spf, hspf, h⟩ := ok_of_bind_ok h
  obtain ⟨dkim, hdkim, h⟩ := ok_of_bind_ok h
  obtain ⟨dmarc, hdmarc, h⟩ := ok_of_bind_ok h
  obtain ⟨ownership, hownership, h⟩ := ok_of_bind_ok h
  cases h
  exact ⟨q, mx, spf, dkim, dmarc, ownership, asked,
    ⟨hmx, hspf, hdkim, hdmarc, hownership⟩, rfl⟩

theorem verifyDomain_of_checks {rt : Runtime} {domain : String} {dnsInfo : Json}
    {resolver : Resolver} {q : DnsRequirements} {mx spf dkim dmarc ownership : RecordCheck}
    (asked : dnsRequirements dnsInfo = .ok q)
    (made : ChecksMade rt domain q resolver mx spf dkim dmarc ownership) :
    verifyDomain rt domain dnsInfo resolver =
      .ok (reportOf domain mx spf dkim dmarc ownership) := by
  rw [verifyDomain, asked]
  simp only [bind, Except.bind, made.mx, made.spf, made.dkim, made.dmarc, made.ownership]
  rfl

end Checks
end Emaild
