import Mathlib.Data.List.Infix
import Mathlib.Data.List.TakeWhile
import Emaild.Dnscheck
import Emaild.Ingest

/-!
What the checks survive. A report is made of any answer whose texts can be decoded and whose
exchanges have a name; the others leave the verification as exceptions that no lookup has
raised.
-/
namespace Emaild
open Relational Text

/-! The payload, as the provider documents it. -/

/-- A member that is of a kind, if it is there. -/
def Has (kind : Json → Prop) (key : String) (value : Json) : Prop :=
  ∃ found, value.get? key = some found ∧ (found = .null ∨ kind found)

def IsText (value : Json) : Prop := ∃ text, value = .string text

/-- `DnsInfo` -/
structure DnsInfo (info : Json) : Prop where
  mx : Has (fun value => ∃ items, value = .array items ∧
    ∀ r ∈ items, Has IsText "hostname" r) "mx_records" info
  spf : Has (Has IsText "value") "spf" info
  dkim : Has (fun value => Has IsText "name" value ∧ Has IsText "value" value) "dkim" info
  verification : Has (Has IsText "name") "verification" info

section Payload
variable {info value : Json} {kind : Json → Prop} {key name : String}

theorem Has.member (has : Has kind key value) :
    ∃ found, Emaild.member value key = .ok found ∧ (found = .null ∨ kind found) := by
  obtain ⟨found, there, known⟩ := has
  exact ⟨found, by rw [Emaild.member, there], known⟩

/-- A member of a section, which may be missing itself. -/
theorem Has.sectionMember (has : Has (Has kind key) name info) :
    ∃ found, Emaild.sectionMember info name key = .ok found ∧ (found = .null ∨ kind found) := by
  obtain ⟨found, there, known⟩ := has.member
  unfold Emaild.sectionMember
  rw [there]
  have inner : Has kind key (found.orElse (.object [])) := by
    have empty : Has kind key (.object []) := ⟨.null, rfl, .inl rfl⟩
    rcases known with rfl | known
    · exact empty
    · by_cases truthy : found.truthy = true
      · rwa [Json.orElse_of_truthy _ truthy]
      · rwa [Json.orElse, if_neg truthy]
  exact inner.member

/-- What the checks use of a payload, and that it is text where it is there. -/
structure Asks (info : Json) (q : DnsRequirements) : Prop where
  hosts : ∀ host ∈ q.hosts, IsText host
  selectorName : Emaild.sectionMember info "dkim" "name" = .ok q.selectorName
  selectorText : q.selectorName = .null ∨ IsText q.selectorName
  dkimValue : Emaild.sectionMember info "dkim" "value" = .ok q.dkimValue
  dkimText : q.dkimValue = .null ∨ IsText q.dkimValue
  tokenName : Emaild.sectionMember info "verification" "name" = .ok q.tokenName
  tokenText : q.tokenName = .null ∨ IsText q.tokenName

theorem DnsInfo.mxHosts (documented : DnsInfo info) :
    ∃ hosts, Emaild.mxHosts info = .ok hosts ∧ ∀ host ∈ hosts, IsText host := by
  obtain ⟨found, there, known⟩ := documented.mx.member
  obtain ⟨items, listed, each⟩ : ∃ items, mxRecords info = .ok items ∧
      ∀ r ∈ items, Has IsText "hostname" r := by
    unfold mxRecords
    rw [there]
    rcases known with rfl | ⟨items, rfl, each⟩
    · exact ⟨[], rfl, fun _ mem => nomatch mem⟩
    · cases items with
      | nil => exact ⟨[], rfl, each⟩
      | cons first rest => exact ⟨first :: rest, rfl, each⟩
  obtain ⟨names, read⟩ := mapM_ok_iff.mpr fun r mem =>
    (each r mem).member.imp fun _ found => found.1
  unfold Emaild.mxHosts
  rw [listed]
  simp only [bind, Except.bind, read]
  refine ⟨_, rfl, fun host mem => ?_⟩
  obtain ⟨there, truthy⟩ := List.mem_filter.mp mem
  obtain ⟨r, mem, same⟩ := (mem_of_mapM_ok read host).mp there
  obtain ⟨found, there, known⟩ := (each r mem).member
  obtain rfl := Except.ok.inj (there.symm.trans same)
  rcases known with rfl | text
  · cases truthy
  · exact text

theorem Has.mono {other : Json → Prop} (weaker : ∀ v, kind v → other v)
    (has : Has kind key value) : Has other key value :=
  Exists.imp (fun found there => ⟨there.1, there.2.imp_right (weaker found)⟩) has

/-- A documented payload can be read. -/
theorem DnsInfo.requirements (documented : DnsInfo info) :
    ∃ q, dnsRequirements info = .ok q ∧ Asks info q := by
  obtain ⟨hosts, listed, texts⟩ := documented.mxHosts
  obtain ⟨spf, hspf, _⟩ := documented.spf.sectionMember
  obtain ⟨selectorName, hname, name⟩ := (documented.dkim.mono fun _ => And.left).sectionMember
  obtain ⟨dkimValue, hvalue, value⟩ := (documented.dkim.mono fun _ => And.right).sectionMember
  obtain ⟨tokenName, htoken, token⟩ := documented.verification.sectionMember
  exact ⟨⟨hosts, spf, selectorName, dkimValue, tokenName⟩,
    dnsRequirements_eq_ok.mpr ⟨listed, hspf, hname, hvalue, htoken⟩,
    ⟨texts, hname, name, hvalue, value, htoken, token⟩⟩

end Payload

/-! The answers. -/

/-- The lookup ends in an answer, or in a failure that the resolver has a name for. -/
def Lookup.Returns {α : Type} : Lookup α → Prop
  | raised _ => False
  | _ => True

/-- Every text of the answer can be decoded. -/
def Lookup.Decodes : Lookup TxtRecord → Prop
  | answered records => ∀ r ∈ records, r.text?.isSome = true
  | _ => True

/-- The exchange has more to its name than the stops of the root. -/
def MxRecord.Named (r : MxRecord) : Prop :=
  ∃ c ∈ (rstripChar '.' r.exchange).toList, isSpace c = false

def Lookup.NamesExchanges : Lookup MxRecord → Prop
  | answered records => ∀ r ∈ records, r.Named
  | _ => True

/-- Whatever is looked up, the resolver comes back. -/
structure Resolver.Returns (resolver : Resolver) : Prop where
  mx : ∀ name, (resolver.mx name).Returns
  spf : ∀ name, (resolver.spf name).Returns
  dkim : ∀ name, (resolver.dkim name).Returns
  dmarc : ∀ name, (resolver.dmarc name).Returns
  ownership : ∀ name, (resolver.ownership name).Returns

theorem exists_ok_bind {ε α β : Type} {x : Except ε α} {f : α → Except ε β}
    (rest : ∀ a, ∃ b, f a = .ok b) : (∃ b, x >>= f = .ok b) ↔ ∃ a, x = .ok a := by
  constructor
  · rintro ⟨b, run⟩
    obtain ⟨a, first, _⟩ := ok_of_bind_ok run
    exact ⟨a, first⟩
  · rintro ⟨a, rfl⟩
    exact rest a

theorem mapM_isSome {α β : Type} {f : α → Option β} {as : List α} :
    (as.mapM f).isSome = true ↔ ∀ a ∈ as, (f a).isSome = true := by
  induction as with
  | nil => simp
  | cons a as ih =>
      rw [List.forall_mem_cons, ← ih, List.mapM_cons]
      cases f a with
      | none => simp
      | some b => cases as.mapM f <;> simp

theorem resolveTxt_iff {found : Lookup TxtRecord} (returns : found.Returns) :
    (∃ result, resolveTxt found = .ok result) ↔ found.Decodes := by
  cases found with
  | absent => exact ⟨fun _ => trivial, fun _ => ⟨_, rfl⟩⟩
  | failed => exact ⟨fun _ => trivial, fun _ => ⟨_, rfl⟩⟩
  | raised => exact False.elim returns
  | answered records =>
      unfold resolveTxt resolve Lookup.Decodes
      dsimp only
      rw [← mapM_isSome]
      cases records.mapM TxtRecord.text? <;> simp

theorem isSpace_digit {c : Char} (digit : c.isDigit = true) : isSpace c = false := by
  obtain ⟨low, high⟩ := Bool.and_eq_true_iff.mp digit
  have low := UInt32.le_iff_toNat_le.mp (of_decide_eq_true low)
  have high := UInt32.le_iff_toNat_le.mp (of_decide_eq_true high)
  have range : 48 ≤ c.toNat ∧ c.toNat ≤ 57 := ⟨low, high⟩
  simp only [isSpace, Bool.or_eq_false_iff, Bool.and_eq_false_iff, decide_eq_false_iff_not,
    beq_eq_false_iff_ne]
  omega

theorem MxRecord.toList_text (r : MxRecord) : r.text.toList =
    Nat.toDigits 10 r.preference ++ ' ' :: (rstripChar '.' r.exchange).toList := by
  rw [← Nat.toList_repr]
  simp only [MxRecord.text, String.toList_append, List.append_assoc]
  rfl

/-- The second word of a spelled record is there if the exchange has a name. -/
theorem afterWord_text {r : MxRecord} : (afterWord r.text).isSome = true ↔ r.Named := by
  have spelled := r.toList_text
  have digits : ∀ c ∈ Nat.toDigits 10 r.preference, isSpace c = false := fun c mem =>
    isSpace_digit (Nat.isDigit_of_mem_toDigits (by decide) (by decide) mem)
  obtain ⟨first, more, preference⟩ := List.exists_cons_of_ne_nil
    (Nat.toDigits_ne_nil (n := r.preference) (b := 10))
  have start : r.text.toList.dropWhile isSpace = r.text.toList := by
    rw [spelled, preference, List.cons_append]
    exact List.dropWhile_cons_of_neg (by simp [digits first (preference ▸ List.mem_cons_self)])
  have blank : r.text.toList.dropWhile (fun c => !isSpace c) =
      ' ' :: (rstripChar '.' r.exchange).toList := by
    rw [spelled, List.dropWhile_append_of_pos fun c mem => by simp [digits c mem]]
    exact List.dropWhile_cons_of_neg (by decide)
  unfold afterWord MxRecord.Named
  dsimp only
  rw [start, blank, List.dropWhile_cons_of_pos (by decide)]
  constructor
  · intro second
    by_contra none
    have blanks : ∀ c ∈ (rstripChar '.' r.exchange).toList, isSpace c = true := by
      simpa using none
    rw [List.dropWhile_eq_nil_iff.mpr blanks] at second
    cases second
  · rintro ⟨c, mem, nonblank⟩
    split
    · rename_i blanks
      have := List.dropWhile_eq_nil_iff.mp blanks c mem
      rw [nonblank] at this
      cases this
    · rfl

/-! The checks. -/

section Checks
variable (rt : Runtime) {domain : String}

theorem truthy_of_text {value : Json} (text : value = .null ∨ IsText value)
    (truthy : value.truthy = true) : ∃ t, value = .string t := by
  rcases text with rfl | text
  · cases truthy
  · exact text

theorem join_texts {separator : String} {values : List Json} (texts : ∀ v ∈ values, IsText v) :
    ∃ joined, join separator values = .ok joined := by
  have all : (values.mapM Json.text?).isSome = true := mapM_isSome.mpr fun v mem => by
    obtain ⟨t, rfl⟩ := texts v mem
    rfl
  obtain ⟨spelled, same⟩ := Option.isSome_iff_exists.mp all
  exact ⟨_, by rw [join, same]⟩

theorem primaryHost_texts {hosts : List Json} (texts : ∀ host ∈ hosts, IsText host) :
    ∃ primary, primaryHost rt hosts = .ok primary := by
  cases hosts with
  | nil => exact ⟨"", rfl⟩
  | cons host rest =>
      obtain ⟨t, rfl⟩ := texts host List.mem_cons_self
      exact ⟨_, rfl⟩

theorem contains_blank_text (r : MxRecord) : contains " " r.text = true := by
  rw [contains, List.any_eq_true]
  refine ⟨' ' :: (rstripChar '.' r.exchange).toList, (List.mem_tails ..).mpr ?_, rfl⟩
  exact r.toList_text ▸ List.suffix_append ..

/-- The values of an answer are compared unless an exchanger has no name. -/
theorem foundHosts_iff {records : List MxRecord} :
    (∃ hosts, ((records.map MxRecord.text).filter (contains " ")).mapM (foundHost rt) =
      .ok hosts) ↔ ∀ r ∈ records, r.Named := by
  have whole : (records.map MxRecord.text).filter (contains " ") = records.map MxRecord.text := by
    refine List.filter_eq_self.mpr fun v mem => ?_
    obtain ⟨r, _, rfl⟩ := List.mem_map.mp mem
    exact contains_blank_text r
  have each : ∀ r : MxRecord, (∃ host, foundHost rt r.text = .ok host) ↔ r.Named := by
    intro r
    rw [← afterWord_text, foundHost]
    cases afterWord r.text <;> simp
  rw [whole, mapM_ok_iff, List.forall_mem_map]
  exact forall₂_congr fun r _ => each r

theorem checkMx_iff {hosts : List Json} {resolver : String → Lookup MxRecord}
    (texts : ∀ host ∈ hosts, IsText host) (returns : (resolver domain).Returns) :
    (∃ c, checkMx rt domain hosts resolver = .ok c) ↔ (resolver domain).NamesExchanges := by
  obtain ⟨joined, same⟩ : ∃ joined, join ", " hosts = .ok joined := join_texts texts
  obtain ⟨primary, first⟩ : ∃ primary, primaryHost rt hosts = .ok primary :=
    primaryHost_texts rt texts
  unfold checkMx
  generalize resolver domain = found at returns ⊢
  cases found with
  | raised => exact False.elim returns
  | failed => exact ⟨fun _ => trivial, fun _ => ⟨_, rfl⟩⟩
  | absent =>
      refine ⟨fun _ => trivial, fun _ => ?_⟩
      simp only [resolveMx, resolve, bind, Except.bind, same]
      exact ⟨_, rfl⟩
  | answered records =>
      have spelled : records.mapM (fun r => some r.text) = some (records.map MxRecord.text) :=
        List.mapM_pure ..
      simp only [resolveMx, resolve, spelled, Lookup.NamesExchanges]
      cases records with
      | nil =>
          refine ⟨fun _ _ => (nomatch ·), fun _ => ?_⟩
          simp only [List.map_nil, bind, Except.bind, same]
          exact ⟨_, rfl⟩
      | cons r rest =>
          rw [← foundHosts_iff rt]
          constructor
          · rintro ⟨c, made⟩
            obtain ⟨_, looked, made⟩ := ok_of_bind_ok made
            cases looked
            obtain ⟨foundHosts, compared, _⟩ := ok_of_bind_ok made
            exact ⟨foundHosts, compared⟩
          · rintro ⟨foundHosts, compared⟩
            simp only [List.map_cons] at compared ⊢
            simp only [bind, Except.bind, compared, first]
            split <;> exact ⟨_, rfl⟩

theorem checkSpf_iff {expected : Json} {resolver : String → Lookup TxtRecord}
    (returns : (resolver domain).Returns) :
    (∃ c, checkSpf rt domain expected resolver = .ok c) ↔ (resolver domain).Decodes := by
  refine (exists_ok_bind fun found => ?_).trans (resolveTxt_iff returns)
  repeat' split
  all_goals exact ⟨_, rfl⟩

theorem checkDmarc_iff {resolver : String → Lookup TxtRecord}
    (returns : (resolver s!"_dmarc.{domain}").Returns) :
    (∃ c, checkDmarc rt domain resolver = .ok c) ↔ (resolver s!"_dmarc.{domain}").Decodes := by
  refine (exists_ok_bind fun found => ?_).trans (resolveTxt_iff returns)
  repeat' split
  all_goals exact ⟨_, rfl⟩

/-- Only a key that the provider has generated is looked up. -/
theorem checkDkim_iff {selectorName key : Json} {resolver : String → Lookup TxtRecord}
    (name : selectorName = .null ∨ IsText selectorName) (value : key = .null ∨ IsText key)
    (returns : ∀ fqdn, (resolver fqdn).Returns) :
    (∃ c, checkDkim domain selectorName key resolver = .ok c) ↔
      ∀ n, selectorName = .string n → n ≠ "" → key.truthy = true →
        (resolver (qualified n domain)).Decodes := by
  constructor
  · rintro ⟨c, made⟩ n rfl given wanted
    unfold checkDkim at made
    rw [if_neg (by simp [given, wanted])] at made
    obtain ⟨_, isText, made⟩ := ok_of_bind_ok made
    cases isText
    obtain ⟨found, looked, _⟩ := ok_of_bind_ok made
    exact (resolveTxt_iff (returns _)).mp ⟨found, looked⟩
  · intro decodes
    unfold checkDkim
    by_cases there : (!selectorName.truthy || !key.truthy) = true
    · rw [if_pos there]
      exact ⟨_, rfl⟩
    · rw [if_neg there]
      simp only [Bool.or_eq_true, Bool.not_eq_true', not_or, Bool.not_eq_false] at there
      obtain ⟨n, rfl⟩ := truthy_of_text name there.1
      obtain ⟨k, rfl⟩ := truthy_of_text value there.2
      obtain ⟨found, looked⟩ := (resolveTxt_iff (returns (qualified n domain))).mpr
        (decodes n rfl ((Json.truthy_string n).mp there.1) there.2)
      simp only [asText, looked, bind, Except.bind]
      repeat' split
      all_goals exact ⟨_, rfl⟩

theorem checkOwnership_iff {tokenName : Json} {resolver : String → Lookup TxtRecord}
    (name : tokenName = .null ∨ IsText tokenName) (returns : ∀ fqdn, (resolver fqdn).Returns) :
    (∃ c, checkOwnership domain tokenName resolver = .ok c) ↔
      ∀ n, tokenName = .string n → n ≠ "" → (resolver (qualified n domain)).Decodes := by
  constructor
  · rintro ⟨c, made⟩ n rfl given
    unfold checkOwnership at made
    rw [if_neg (by simp [given])] at made
    obtain ⟨_, isText, made⟩ := ok_of_bind_ok made
    cases isText
    obtain ⟨found, looked, _⟩ := ok_of_bind_ok made
    exact (resolveTxt_iff (returns _)).mp ⟨found, looked⟩
  · intro decodes
    unfold checkOwnership
    by_cases there : (!tokenName.truthy) = true
    · rw [if_pos there]
      exact ⟨_, rfl⟩
    · rw [if_neg there]
      rw [Bool.not_eq_true', Bool.not_eq_false] at there
      obtain ⟨n, rfl⟩ := truthy_of_text name there
      obtain ⟨found, looked⟩ := (resolveTxt_iff (returns (qualified n domain))).mpr
        (decodes n rfl ((Json.truthy_string n).mp there))
      simp only [asText, looked, bind, Except.bind]
      repeat' split
      all_goals exact ⟨_, rfl⟩

end Checks

/-- The answers that a report is made of: every text that is asked for can be decoded, and
every mail exchanger has a name. -/
structure LegibleAnswers (domain : String) (info : Json) (resolver : Resolver) : Prop where
  mx : (resolver.mx domain).NamesExchanges
  spf : (resolver.spf domain).Decodes
  dkim : ∀ name value, sectionMember info "dkim" "name" = .ok (.string name) → name ≠ "" →
    sectionMember info "dkim" "value" = .ok (.string value) → value ≠ "" →
    (resolver.dkim (qualified name domain)).Decodes
  dmarc : (resolver.dmarc s!"_dmarc.{domain}").Decodes
  ownership : ∀ name, sectionMember info "verification" "name" = .ok (.string name) → name ≠ "" →
    (resolver.ownership (qualified name domain)).Decodes

/-- A documented payload is verified, in five checks, exactly if the answers are legible. -/
theorem verifyDomain_reports_iff (rt : Runtime) (domain : String) {info : Json}
    (documented : DnsInfo info) {resolver : Resolver} (returns : resolver.Returns) :
    (∃ report, verifyDomain rt domain info resolver = .ok report ∧ report.domain = domain ∧
      report.checks.rows.map Prod.fst = ["mx", "spf", "dkim", "dmarc", "ownership"]) ↔
      LegibleAnswers domain info resolver := by
  obtain ⟨q, asked, asks⟩ := documented.requirements
  constructor
  · rintro ⟨report, verified, _⟩
    obtain ⟨q', mx, spf, dkim, dmarc, ownership, same, made, _⟩ :=
      checked_of_verifyDomain rt verified
    obtain rfl := Except.ok.inj (asked.symm.trans same)
    exact {
      mx := (checkMx_iff rt asks.hosts (returns.mx _)).mp ⟨mx, made.mx⟩
      spf := (checkSpf_iff rt (returns.spf _)).mp ⟨spf, made.spf⟩
      dkim := fun name value hname given hvalue wanted => by
        refine (checkDkim_iff asks.selectorText asks.dkimText returns.dkim).mp ⟨dkim, made.dkim⟩
          name (Except.ok.inj (asks.selectorName.symm.trans hname)) given ?_
        rw [Except.ok.inj (asks.dkimValue.symm.trans hvalue)]
        exact (Json.truthy_string value).mpr wanted
      dmarc := (checkDmarc_iff rt (returns.dmarc _)).mp ⟨dmarc, made.dmarc⟩
      ownership := fun name hname given =>
        (checkOwnership_iff asks.tokenText returns.ownership).mp ⟨ownership, made.ownership⟩
          name (Except.ok.inj (asks.tokenName.symm.trans hname)) given }
  · intro legible
    obtain ⟨mx, hmx⟩ := (checkMx_iff rt asks.hosts (returns.mx _)).mpr legible.mx
    obtain ⟨spf, hspf⟩ := (checkSpf_iff rt (returns.spf _)).mpr legible.spf
    obtain ⟨dkim, hdkim⟩ :=
      (checkDkim_iff asks.selectorText asks.dkimText returns.dkim).mpr
        fun name hname given wanted => by
          obtain ⟨value, hvalue⟩ := truthy_of_text asks.dkimText wanted
          refine legible.dkim name value (hname ▸ asks.selectorName) given
            (hvalue ▸ asks.dkimValue) ((Json.truthy_string value).mp (hvalue ▸ wanted))
    obtain ⟨dmarc, hdmarc⟩ := (checkDmarc_iff rt (returns.dmarc _)).mpr legible.dmarc
    obtain ⟨ownership, hownership⟩ :=
      (checkOwnership_iff asks.tokenText returns.ownership).mpr fun name hname given =>
        legible.ownership name (hname ▸ asks.tokenName) given
    exact ⟨_, verifyDomain_of_checks asked ⟨hmx, hspf, hdkim, hdmarc, hownership⟩, rfl, rfl⟩

namespace Sample

/-- A payload without keys and tokens. -/
def bareInfo : Json :=
  .object [("mx_records", .array [.object [("hostname", .string "mx.example")]]),
    ("dkim", .null)]

theorem documented : DnsInfo bareInfo where
  mx := ⟨_, rfl, .inr ⟨_, rfl, List.forall_mem_cons.mpr ⟨⟨_, rfl, .inr ⟨_, rfl⟩⟩, nofun⟩⟩⟩
  spf := ⟨_, rfl, .inl rfl⟩
  dkim := ⟨_, rfl, .inl rfl⟩
  verification := ⟨_, rfl, .inl rfl⟩

/-- A domain whose only records are mail exchangers. -/
def exchangersOnly (exchange : String) : Resolver where
  mx _ := .answered [⟨0, exchange⟩]
  spf _ := .absent
  dkim _ := .absent
  dmarc _ := .absent
  ownership _ := .absent

theorem returns (exchange : String) : (exchangersOnly exchange).Returns :=
  ⟨fun _ => trivial, fun _ => trivial, fun _ => trivial, fun _ => trivial, fun _ => trivial⟩

end Sample

theorem bare_payload_is_verified : ∃ report,
    verifyDomain Sample.runtime "shop.example" Sample.bareInfo
      (Sample.exchangersOnly "mx.example.") = .ok report ∧ report.domain = "shop.example" ∧
    report.checks.rows.map Prod.fst = ["mx", "spf", "dkim", "dmarc", "ownership"] :=
  (verifyDomain_reports_iff Sample.runtime "shop.example" Sample.documented
    (Sample.returns "mx.example.")).mpr {
      mx := List.forall_mem_cons.mpr ⟨⟨'m', by decide, by decide⟩, nofun⟩
      spf := trivial
      dkim := fun _ _ _ _ _ _ => trivial
      dmarc := trivial
      ownership := fun _ _ _ => trivial }

/-- The null exchanger of a domain that takes no mail has no second word. -/
theorem null_exchanger_raises : ¬ ∀ (rt : Runtime) (domain : String) (info : Json),
    DnsInfo info → ∀ resolver : Resolver, resolver.Returns →
      ∃ report, verifyDomain rt domain info resolver = .ok report := by
  intro claim
  obtain ⟨report, verified⟩ := claim Sample.runtime "shop.example" Sample.bareInfo
    Sample.documented (Sample.exchangersOnly ".") (Sample.returns ".")
  have raised : verifyDomain Sample.runtime "shop.example" Sample.bareInfo
      (Sample.exchangersOnly ".") = .error .indexError := rfl
  rw [raised] at verified
  cases verified

end Emaild
