import Mathlib.Data.List.Dedup
import Mathlib.Data.List.Infix
import Emaild.Domains.Sweeps

/-!
The records that an operator is told to publish, against the checks that are made of
them. The zone of a domain that follows the instructions has the listed records and no
others; where a check looks and what it wants to find there are its own.
-/
namespace Emaild
open Relational Text

/-- Names are compared without regard to case. -/
def sameName (a b : String) : Bool := a.toList.map Char.toLower = b.toList.map Char.toLower

/-- The name that a relative one stands for. -/
def absolute (domain name : String) : String := if name = "@" then domain else s!"{name}.{domain}"

namespace DnsRecord
variable (domain : String) (r : DnsRecord)

def standsAt (name : String) : Bool :=
  r.name.text?.any fun relative => sameName (absolute domain relative) name

end DnsRecord

/-- The texts that are listed for a name. -/
def textsAt (records : List DnsRecord) (domain name : String) : List String :=
  (records.filter fun r => r.type = "TXT" && r.standsAt domain name).filterMap
    fun r => r.value.text?

/-- A mail exchanger, as it is read. -/
def DnsRecord.exchanger (r : DnsRecord) (host : String) : String :=
  let name := rstripChar '.' host
  s!"{r.priority} {name}"

/-- The mail exchangers that are listed for a name. -/
def exchangersAt (records : List DnsRecord) (domain name : String) : List String :=
  (records.filter fun r => r.type = "MX" && r.standsAt domain name).filterMap fun r =>
    r.value.text?.map r.exchanger

/-- A text without white space, as names and numbers are. -/
def Tight (s : String) : Prop := ∀ c ∈ s.toList, isSpace c = false

def Word (s : String) : Prop := s ≠ "" ∧ Tight s

instance (s : String) : Decidable (Tight s) := List.decidableBAll _ s.toList
instance (s : String) : Decidable (Word s) := inferInstanceAs (Decidable (_ ∧ _))

/-- The zone has the listed records, and no others. -/
structure Publishes (domain : String) (records : List DnsRecord) (zone : Resolver) : Prop where
  named : ∀ r ∈ records, ∃ name value, r.name = .string name ∧ r.value = .string value
  mail : ∀ r ∈ records, r.type = "MX" → Word r.priority ∧
    ∀ host, r.value = .string host → Tight host
  mx : ∀ name, ∃ values, resolveMx (zone.mx name) = .ok (.ok values) ∧
    ∀ v, v ∈ values ↔ v ∈ exchangersAt records domain name
  txt : ∀ lookup ∈ [zone.spf, zone.dkim, zone.dmarc, zone.ownership], ∀ name, ∃ values,
    resolveTxt (lookup name) = .ok (.ok values) ∧ values.Nodup ∧
      ∀ v, v ∈ values ↔ v ∈ textsAt records domain name

/-- What is relied on about `str.lower`: a full stop has no case, and no text is lost. -/
structure LowersNames (lower : String → String) : Prop where
  stops : ∀ s, lower (rstripChar '.' s) = rstripChar '.' (lower s)
  nonempty : ∀ s, lower s = "" → s = ""

section Words

theorem Tight.dropWhile {s : String} (tight : Tight s) : s.toList.dropWhile isSpace = s.toList := by
  cases chars : s.toList with
  | nil => rfl
  | cons c rest =>
      have first := tight c (chars ▸ List.mem_cons_self)
      exact List.dropWhile_cons_of_neg (by simp [first])

/-- The second of two words, if there is one. -/
theorem afterWord_words {first second : String} (word : Word first) (tight : Tight second) :
    afterWord s!"{first} {second}" = if second = "" then none else some second := by
  have spelled : (s!"{first} {second}").toList = first.toList ++ ' ' :: second.toList := by
    simp [String.toList_append]
    rfl
  have blank : isSpace ' ' = true := by decide
  have start : (first.toList ++ ' ' :: second.toList).dropWhile isSpace =
      first.toList ++ ' ' :: second.toList := by
    obtain ⟨c, rest, chars⟩ := List.exists_cons_of_ne_nil (mt String.toList_eq_nil_iff.mp word.1)
    have nonblank := word.2 c (chars ▸ List.mem_cons_self)
    rw [chars, List.cons_append, List.dropWhile_cons_of_neg (by simp [nonblank])]
  have skipped : (first.toList ++ ' ' :: second.toList).dropWhile (fun c => !isSpace c) =
      ' ' :: second.toList := by
    rw [List.dropWhile_append_of_pos fun c mem => by simp [word.2 c mem],
      List.dropWhile_cons_of_neg (by simp [blank])]
  unfold afterWord
  dsimp only
  rw [spelled, start, skipped, List.dropWhile_cons_of_pos blank, tight.dropWhile]
  by_cases empty : second = ""
  · subst empty
    rfl
  · obtain ⟨c, rest, chars⟩ := List.exists_cons_of_ne_nil (mt String.toList_eq_nil_iff.mp empty)
    rw [if_neg empty, chars]
    show some (String.ofList (c :: rest)) = some second
    rw [← chars, String.ofList_toList]

theorem contains_blank (first second : String) : contains " " s!"{first} {second}" = true := by
  have spelled : (s!"{first} {second}").toList = first.toList ++ ' ' :: second.toList := by
    simp [String.toList_append]
    rfl
  unfold contains
  rw [spelled, List.any_eq_true]
  exact ⟨' ' :: second.toList, (List.mem_tails ..).mpr (List.suffix_append ..), rfl⟩

end Words

/-! What is listed. -/

theorem mxToPublish_ok {str : Json → String} {mx : Json} {r : DnsRecord}
    (h : mxToPublish str mx = .ok r) : r.type = "MX" ∧ r.name = .string "@" ∧
      memberOr mx "hostname" (.string "") = .ok r.value := by
  obtain ⟨host, found, h⟩ := ok_of_bind_ok h
  obtain ⟨_, _, h⟩ := ok_of_bind_ok h
  cases h
  exact ⟨rfl, rfl, found⟩

theorem dkimToPublish_type {dkim : Json} {records : List DnsRecord}
    (h : dkimToPublish dkim = .ok records) : ∀ r ∈ records, r.type = "TXT" := by
  obtain ⟨value, _, h⟩ := ok_of_bind_ok h
  split at h
  · obtain ⟨_, _, h⟩ := ok_of_bind_ok h
    obtain ⟨_, _, h⟩ := ok_of_bind_ok h
    cases h
    simp
  · cases h
    simp

theorem tokenToPublish_type {verification : Json} {records : List DnsRecord}
    (h : tokenToPublish verification = .ok records) : ∀ r ∈ records, r.type = "TXT" := by
  obtain ⟨name, _, h⟩ := ok_of_bind_ok h
  split at h
  · obtain ⟨_, _, h⟩ := ok_of_bind_ok h
    cases h
    simp
  · cases h
    simp

/-- What a list is put together from. -/
theorem requiredDnsRecords_ok {str : Json → String} {domain : String} {dnsInfo : Json}
    {records : List DnsRecord} (h : requiredDnsRecords str domain dnsInfo = .ok records) :
    ∃ mxs mx spf dkim keys verification tokens, mxRecords dnsInfo = .ok mxs ∧
      mxs.mapM (mxToPublish str) = .ok mx ∧ member dnsInfo "dkim" = .ok dkim ∧
      dkimToPublish (dkim.orElse (.object [])) = .ok keys ∧
      tokenToPublish verification = .ok tokens ∧
      records = mx ++ (if Json.truthy spf then [apex spf] else []) ++ keys ++ tokens ++
        [dmarcRecord] := by
  obtain ⟨mxs, found, h⟩ := ok_of_bind_ok h
  obtain ⟨mx, published, h⟩ := ok_of_bind_ok h
  obtain ⟨spf, _, h⟩ := ok_of_bind_ok h
  obtain ⟨dkim, there, h⟩ := ok_of_bind_ok h
  obtain ⟨keys, keyed, h⟩ := ok_of_bind_ok h
  obtain ⟨_, _, h⟩ := ok_of_bind_ok h
  obtain ⟨tokens, owned, h⟩ := ok_of_bind_ok h
  exact ⟨mxs, mx, spf, dkim, keys, _, tokens, found, published, there, keyed, owned,
    (Except.ok.inj h).symm⟩

/-- The MX records that are listed are those of the payload. -/
theorem listed_mx {str : Json → String} {domain : String} {dnsInfo : Json}
    {records : List DnsRecord} (h : requiredDnsRecords str domain dnsInfo = .ok records) :
    ∃ mxs, mxRecords dnsInfo = .ok mxs ∧ (∀ mx ∈ mxs, ∃ r, mxToPublish str mx = .ok r) ∧
      ∀ r, r ∈ records ∧ r.type = "MX" ↔ ∃ mx ∈ mxs, mxToPublish str mx = .ok r := by
  obtain ⟨mxs, mx, spf, _, keys, _, tokens, found, published, _, keyed, owned, rfl⟩ :=
    requiredDnsRecords_ok h
  refine ⟨mxs, found, mapM_ok_iff.mp ⟨mx, published⟩, fun r => ?_⟩
  rw [← mem_of_mapM_ok published]
  constructor
  · rintro ⟨mem, isMx⟩
    simp only [List.mem_append, List.mem_singleton, or_assoc] at mem
    rcases mem with mem | mem | mem | mem | rfl
    · exact mem
    · split at mem
      · obtain rfl := List.mem_singleton.mp mem
        exact absurd isMx (by simp [apex])
      · cases mem
    · exact absurd ((dkimToPublish_type keyed r mem).symm.trans isMx) (by decide)
    · exact absurd ((tokenToPublish_type owned r mem).symm.trans isMx) (by decide)
    · exact absurd isMx (by decide)
  · intro mem
    obtain ⟨_, _, made⟩ := (mem_of_mapM_ok published r).mp mem
    exact ⟨by simp [mem], (mxToPublish_ok made).1⟩

theorem memberOr_of_truthy {value found fallback : Json} {key : String}
    (h : member value key = .ok found) (truthy : found.truthy = true) :
    memberOr value key fallback = .ok found := by
  cases value with
  | object members =>
      cases there : members.lookup key with
      | none =>
          simp only [member, Json.get?_object, there, Option.getD_none, Except.ok.injEq] at h
          rw [← h] at truthy
          cases truthy
      | some value =>
          simp only [member, Json.get?_object, there, Option.getD_some, Except.ok.injEq] at h
          simp [memberOr, Json.getD?, there, h]
  | _ => cases h

/-- The first host that is checked is one of those that are listed. -/
theorem primary_listed {str : Json → String} {domain : String} {dnsInfo : Json}
    {records : List DnsRecord} (listed : requiredDnsRecords str domain dnsInfo = .ok records)
    {host : Json} {rest : List Json} (hosts : mxHosts dnsInfo = .ok (host :: rest)) :
    ∃ r ∈ records, r.type = "MX" ∧ r.value = host := by
  obtain ⟨mxs, found, made, exactly⟩ := listed_mx listed
  obtain ⟨mxs', found', hosts⟩ := ok_of_bind_ok hosts
  cases found.symm.trans found'
  obtain ⟨named, spelled, hosts⟩ := ok_of_bind_ok hosts
  have mem : host ∈ named.filter Json.truthy := by
    rw [Except.ok.inj hosts]
    exact List.mem_cons_self
  obtain ⟨mem, truthy⟩ := List.mem_filter.mp mem
  obtain ⟨mx, given, hostname⟩ := (mem_of_mapM_ok spelled host).mp mem
  obtain ⟨r, shown⟩ := made mx given
  obtain ⟨isListed, isMx⟩ := (exactly r).mpr ⟨mx, given, shown⟩
  have value := (mxToPublish_ok shown).2.2
  rw [memberOr_of_truthy hostname truthy] at value
  exact ⟨r, isListed, isMx, (Except.ok.inj value).symm⟩

/-! Quoting is not compared. -/

theorem filter_dropWhile {keep p : Char → Bool} (drops : ∀ c, p c = true → keep c = false)
    (l : List Char) : (l.dropWhile p).filter keep = l.filter keep := by
  induction l with
  | nil => rfl
  | cons c l ih =>
      by_cases here : p c = true
      · rw [List.dropWhile_cons_of_pos here, ih, List.filter_cons_of_neg (by simp [drops c here])]
      · rw [List.dropWhile_cons_of_neg here]

theorem filter_removePair {keep : Char → Bool} {a b : Char} (ha : keep a = false)
    (hb : keep b = false) (l : List Char) : (removePair a b l).filter keep = l.filter keep := by
  fun_induction removePair a b l with
  | case1 c d rest pair ih =>
      obtain ⟨rfl, rfl⟩ := pair
      rw [ih, List.filter_cons_of_neg (by simp [ha]), List.filter_cons_of_neg (by simp [hb])]
  | case2 c d rest other ih => rw [List.filter_cons, ih, ← List.filter_cons]
  | case3 => rfl

theorem filter_stripChar {keep : Char → Bool} {c : Char} (hc : keep c = false) (s : String) :
    (stripChar c s).toList.filter keep = s.toList.filter keep := by
  have drops : ∀ d, decide (d = c) = true → keep d = false := fun d same =>
    of_decide_eq_true same ▸ hc
  simp only [stripChar, rstripChar, String.toList_ofList, List.filter_reverse,
    filter_dropWhile drops, List.reverse_reverse]

/-- A key reads the same with and without the provider's quoting. -/
theorem normaliseTxt_unquoted (key : String) : normaliseTxt (unquoted key) = normaliseTxt key := by
  unfold normaliseTxt unquoted
  rw [String.toList_ofList, filter_removePair (by decide) (by decide),
    filter_stripChar (by decide)]

/-- The key is listed under its name. -/
theorem listed_key {str : Json → String} {domain : String} {dnsInfo : Json}
    {records : List DnsRecord} {q : DnsRequirements} {selector key : String}
    (listed : requiredDnsRecords str domain dnsInfo = .ok records)
    (asked : dnsRequirements dnsInfo = .ok q) (named : q.selectorName = .string selector)
    (keyed : q.dkimValue = .string key) (hasName : selector ≠ "") (hasKey : key ≠ "") :
    ∃ r ∈ records, r.type = "TXT" ∧ r.name = .string selector ∧
      r.value = .string (unquoted key) := by
  have read := dnsRequirements_eq_ok.mp asked
  obtain ⟨dkim, found, selectorName⟩ := ok_of_bind_ok (named ▸ read.selectorName)
  obtain ⟨dkim', found', dkimValue⟩ := ok_of_bind_ok (keyed ▸ read.dkimValue)
  cases found.symm.trans found'
  obtain ⟨_, _, _, dkim', _, _, _, _, _, found', published, _, rfl⟩ := requiredDnsRecords_ok listed
  cases found.symm.trans found'
  obtain ⟨value, found', published⟩ := ok_of_bind_ok published
  cases dkimValue.symm.trans found'
  have hasKey : (Json.string key).truthy = true := by simp [hasKey]
  have hasName : (Json.string selector).truthy = true := by simp [hasName]
  rw [if_pos hasKey, memberOr_of_truthy selectorName hasName] at published
  cases published
  exact ⟨⟨"TXT", .string selector, .string (unquoted key), ""⟩, by simp, rfl, rfl, rfl⟩

/-! The checks of a zone that follows the instructions. -/

section Checks
variable {rt : Runtime} {str : Json → String} {domain : String} {dnsInfo : Json}
  {records : List DnsRecord} {zone : Resolver}

/-- Every mail exchanger that is listed has a name. -/
def NamesExchangers (records : List DnsRecord) : Prop :=
  ∀ r ∈ records, r.type = "MX" → ∀ host, r.value = .string host → rstripChar '.' host ≠ ""

theorem mem_exchangersAt (listed : requiredDnsRecords str domain dnsInfo = .ok records)
    {v : String} :
    v ∈ exchangersAt records domain domain ↔ ∃ r ∈ records, r.type = "MX" ∧
      ∃ host, r.value = .string host ∧ v = r.exchanger host := by
  obtain ⟨mxs, _, _, exactly⟩ := listed_mx listed
  simp only [exchangersAt, List.mem_filterMap, List.mem_filter, Bool.and_eq_true,
    decide_eq_true_eq]
  constructor
  · rintro ⟨r, ⟨mem, isMx, _⟩, spelled⟩
    obtain ⟨host, value, rfl⟩ := Option.map_eq_some_iff.mp spelled
    refine ⟨r, mem, isMx, host, ?_, rfl⟩
    cases here : r.value with
    | string text =>
        rw [here] at value
        cases value
        rfl
    | _ =>
        rw [here] at value
        cases value
  · rintro ⟨r, mem, isMx, host, value, rfl⟩
    obtain ⟨mx, _, shown⟩ := (exactly r).mp ⟨mem, isMx⟩
    refine ⟨r, ⟨mem, isMx, ?_⟩, by simp [value, Json.text?]⟩
    simp [DnsRecord.standsAt, (mxToPublish_ok shown).2.1, Json.text?, absolute, sameName]

theorem rstripChar_tight {s : String} (tight : Tight s) : Tight (rstripChar '.' s) := by
  intro c mem
  simp only [rstripChar, String.toList_ofList, List.mem_reverse] at mem
  exact tight c (List.mem_reverse.mp (List.dropWhile_subset _ mem))

theorem foundHost_listed (published : Publishes domain records zone) {r : DnsRecord}
    (mem : r ∈ records) (isMx : r.type = "MX") {host : String} (value : r.value = .string host) :
    foundHost rt (r.exchanger host) =
      if rstripChar '.' host = "" then .error .indexError
      else .ok (rt.lower (rstripChar '.' host)) := by
  obtain ⟨word, tight⟩ := published.mail r mem isMx
  unfold foundHost DnsRecord.exchanger
  dsimp only
  rw [afterWord_words word (rstripChar_tight (tight host value))]
  by_cases empty : rstripChar '.' host = "" <;> simp [empty]

/-- The exchangers pass exactly if each of them has a name. -/
theorem checkMx_published (lower : LowersNames rt.lower) (published : Publishes domain records zone)
    (listed : requiredDnsRecords str domain dnsInfo = .ok records) {hosts : List Json}
    (named : mxHosts dnsInfo = .ok hosts) (nonempty : hosts ≠ []) :
    (∃ c, checkMx rt domain hosts zone.mx = .ok c ∧ c.ok = true) ↔ NamesExchangers records := by
  obtain ⟨host, rest, rfl⟩ := List.exists_cons_of_ne_nil nonempty
  obtain ⟨first, mem, isMx, value⟩ := primary_listed listed named
  obtain ⟨_, host, _, isText⟩ := published.named first mem
  obtain rfl := value.symm.trans isText
  obtain ⟨values, looked, exactly⟩ := published.mx domain
  have found : ∀ v, v ∈ values ↔ ∃ r ∈ records, r.type = "MX" ∧
      ∃ host, r.value = .string host ∧ v = r.exchanger host :=
    fun v => (exactly v).trans (mem_exchangersAt listed)
  have here := (found _).mpr ⟨first, mem, isMx, host, isText, rfl⟩
  have resolved : checkMx rt domain (.string host :: rest) zone.mx = (do
      let foundHosts ← (values.filter (contains " ")).mapM (foundHost rt)
      let primary ← primaryHost rt (.string host :: rest)
      if primary ≠ "" ∧ primary ∈ foundHosts then
        return { name := "mx", result := .pass, expected := .string primary, found := values }
      else
        return { name := "mx", result := .fail, expected := .string primary, found := values
                 detail := some "primary MX not published" }) := by
    cases values with
    | nil => cases here
    | cons v values =>
        rw [checkMx, looked]
        rfl
  constructor
  · rintro ⟨c, checked, _⟩ r mem' isMx' host' value' empty
    rw [resolved] at checked
    obtain ⟨foundHosts, spelled, _⟩ := ok_of_bind_ok checked
    have there := (found _).mpr ⟨r, mem', isMx', host', value', rfl⟩
    obtain ⟨_, read⟩ := mapM_ok_iff.mp ⟨foundHosts, spelled⟩ _
      (List.mem_filter.mpr ⟨there, contains_blank ..⟩)
    rw [foundHost_listed published mem' isMx' value', if_pos empty] at read
    cases read
  · intro names
    have spelled : ∃ foundHosts,
        (values.filter (contains " ")).mapM (foundHost rt) = .ok foundHosts := by
      refine mapM_ok_iff.mpr fun v there => ?_
      obtain ⟨r, mem', isMx', host', value', rfl⟩ := (found v).mp (List.mem_filter.mp there).1
      exact ⟨_, (foundHost_listed published mem' isMx' value').trans
        (if_neg (names r mem' isMx' host' value'))⟩
    obtain ⟨foundHosts, spelled⟩ := spelled
    have primary : rstripChar '.' (rt.lower host) ∈ foundHosts := by
      refine (mem_of_mapM_ok spelled _).mpr ⟨_, List.mem_filter.mpr ⟨here, contains_blank ..⟩, ?_⟩
      rw [foundHost_listed published mem isMx isText, if_neg (names first mem isMx host isText),
        lower.stops]
    have nonempty : rstripChar '.' (rt.lower host) ≠ "" := by
      rw [← lower.stops]
      exact mt (lower.nonempty _) (names first mem isMx host isText)
    refine ⟨{ name := "mx", result := .pass, expected := .string (rstripChar '.' (rt.lower host))
              found := values }, ?_, rfl⟩
    rw [resolved, spelled]
    exact if_pos ⟨nonempty, primary⟩

/-- The text begins like a record of the policy. -/
def Begins (rt : Runtime) (version text : String) : Prop :=
  startsWith version (rt.lower (strip text)) = true

/-- One of the texts begins like an SPF record, and it authorises the provider. -/
def OneAuthorises (rt : Runtime) (texts : List String) : Prop :=
  ∃ text, contains "include:mxroute.com" (rt.lower (normaliseTxt text)) = true ∧
    ∀ other, other ∈ texts ∧ Begins rt "v=spf1" other ↔ other = text

theorem authorisesProvider_iff {values : List String} (distinct : values.Nodup) :
    authorisesProvider rt values = true ↔ OneAuthorises rt values := by
  have filtered : ∀ other, other ∈ policyRecords rt "v=spf1" values ↔
      other ∈ values ∧ Begins rt "v=spf1" other := fun other => List.mem_filter
  have once : (policyRecords rt "v=spf1" values).Nodup := distinct.filter _
  unfold OneAuthorises
  simp only [← filtered]
  unfold authorisesProvider
  constructor
  · intro h
    split at h
    · rename_i text one
      exact ⟨text, h, fun other => by rw [one, List.mem_singleton]⟩
    · cases h
  · rintro ⟨text, includes, only⟩
    have one : policyRecords rt "v=spf1" values = [text] := by
      rw [← List.perm_singleton, List.perm_ext_iff_of_nodup once (List.nodup_singleton text)]
      simpa only [List.mem_singleton] using only
    rw [one]
    exact includes

variable (rt) in
theorem checkSpf_published (published : Publishes domain records zone) (expected : Json) :
    (∃ c, checkSpf rt domain expected zone.spf = .ok c ∧ c.ok = true) ↔
      OneAuthorises rt (textsAt records domain domain) := by
  obtain ⟨values, looked, distinct, exactly⟩ := published.txt zone.spf (by simp) domain
  have checked : ∃ c, checkSpf rt domain expected zone.spf = .ok c := by
    rw [checkSpf, looked]
    dsimp only [bind, Except.bind]
    split
    · exact ⟨_, rfl⟩
    · split <;> exact ⟨_, rfl⟩
    · exact ⟨_, rfl⟩
  obtain ⟨c, checked⟩ := checked
  have judged := (checkSpf_judged rt checked).verdict.2
  rw [looked] at judged
  have passes : c.ok = true ↔ authorisesProvider rt values = true := by
    simpa [RecordCheck.ok, verdict] using judged
  simp only [checked, Except.ok.injEq, exists_eq_left', passes, authorisesProvider_iff distinct,
    OneAuthorises, exactly]

theorem checkDkim_published (published : Publishes domain records zone) {selector key : String}
    (named : selector ≠ "") (keyed : key ≠ "") :
    (∃ c, checkDkim domain (.string selector) (.string key) zone.dkim = .ok c ∧ c.ok = true) ↔
      ∃ text ∈ textsAt records domain (qualified selector domain),
        normaliseTxt text = normaliseTxt key := by
  obtain ⟨values, looked, _, exactly⟩ :=
    published.txt zone.dkim (by simp) (qualified selector domain)
  have checked : ∃ c, checkDkim domain (.string selector) (.string key) zone.dkim = .ok c := by
    rw [checkDkim, if_neg (by simp [named, keyed])]
    dsimp only [asText, bind, Except.bind]
    rw [looked]
    cases values with
    | nil => exact ⟨_, rfl⟩
    | cons v values =>
        dsimp only
        split <;> exact ⟨_, rfl⟩
  obtain ⟨c, checked⟩ := checked
  have passes : c.ok = true ↔ publishesValue (.string key) values = true := by
    rcases checkDkim_judged checked with ⟨unasked, _⟩ | ⟨name, ⟨⟩, _, judged⟩
    · have asked : ((Json.string selector).truthy && (Json.string key).truthy) = true := by
        simp [named, keyed]
      exact absurd (unasked.symm.trans asked) (by decide)
    · rw [looked] at judged
      simpa [RecordCheck.ok, verdict] using judged.verdict.2
  simp only [checked, Except.ok.injEq, exists_eq_left', passes, publishesValue, List.any_eq_true,
    decide_eq_true_eq, exactly]

theorem checkOwnership_published (published : Publishes domain records zone) {token : String}
    (named : token ≠ "") :
    (∃ c, checkOwnership domain (.string token) zone.ownership = .ok c ∧ c.ok = true) ↔
      ∃ text ∈ textsAt records domain (qualified token domain),
        normaliseTxt text = "domain-verified" := by
  obtain ⟨values, looked, _, exactly⟩ :=
    published.txt zone.ownership (by simp) (qualified token domain)
  have checked : ∃ c, checkOwnership domain (.string token) zone.ownership = .ok c := by
    rw [checkOwnership, if_neg (by simp [named])]
    dsimp only [asText, bind, Except.bind]
    rw [looked]
    dsimp only
    split <;> exact ⟨_, rfl⟩
  obtain ⟨c, checked⟩ := checked
  have passes : c.ok = true ↔ publishesToken values = true := by
    rcases checkOwnership_judged checked with ⟨unasked, _⟩ | ⟨name, ⟨⟩, _, judged⟩
    · have asked : (Json.string token).truthy = true := by simp [named]
      exact absurd (unasked.symm.trans asked) (by decide)
    · rw [looked] at judged
      simpa [RecordCheck.ok, verdict] using judged.verdict.2
  simp only [checked, Except.ok.injEq, exists_eq_left', passes, publishesToken, List.any_eq_true,
    decide_eq_true_eq, exactly]

variable (rt) in
theorem checkDmarc_published (published : Publishes domain records zone) :
    ∃ c, checkDmarc rt domain zone.dmarc = .ok c := by
  obtain ⟨values, looked, _⟩ := published.txt zone.dmarc (by simp) s!"_dmarc.{domain}"
  rw [checkDmarc, looked]
  dsimp only [bind, Except.bind]
  split <;> exact ⟨_, rfl⟩

/-- The checks that decide about sending, and that of the token. -/
def DomainDnsReport.Passes (report : DomainDnsReport) : Prop :=
  ∀ name ∈ ["ownership", "mx", "spf", "dkim"],
    (report.checks.get? name).any RecordCheck.ok = true

/-- A record of this name, relative to the domain, stands where the check looks for it. -/
def Meets (domain name : String) : Prop :=
  sameName (absolute domain name) (qualified name domain) = true

/-- It does unless the name is that of the domain itself, or ends like one within it. -/
theorem meets_of_relative {domain name : String} (below : name ≠ "@")
    (relative : endsWith domain name = false) : Meets domain name := by
  simp [Meets, absolute, qualified, below, relative, sameName]

/-- A text is listed where another name is looked up. -/
def StandsIn (domain : String) (records : List DnsRecord) (name : String)
    (good : String → Prop) : Prop :=
  ∃ r ∈ records, r.type = "TXT" ∧ r.name ≠ .string name ∧
    r.standsAt domain (qualified name domain) = true ∧ ∃ text, r.value = .string text ∧ good text

/-- A text is listed under the name. -/
def ListedUnder (records : List DnsRecord) (name : String) (good : String → Prop) : Prop :=
  ∃ r ∈ records, r.type = "TXT" ∧ r.name = .string name ∧ ∃ text, r.value = .string text ∧ good text

/-- A lookup finds what is listed under its name, if that stands there, and what stands in
for it. -/
theorem textsAt_qualified_iff (published : Publishes domain records zone) (name : String)
    (good : String → Prop) :
    (∃ text ∈ textsAt records domain (qualified name domain), good text) ↔
      (Meets domain name ∧ ListedUnder records name good) ∨ StandsIn domain records name good := by
  have own {r : DnsRecord} (named : r.name = .string name) :
      r.standsAt domain (qualified name domain) = true ↔ Meets domain name := by
    simp [DnsRecord.standsAt, named, Json.text?, Meets]
  constructor
  · rintro ⟨text, mem, ok⟩
    obtain ⟨r, mem, spelled⟩ := List.mem_filterMap.mp mem
    obtain ⟨mem, here⟩ := List.mem_filter.mp mem
    rw [Bool.and_eq_true, decide_eq_true_eq] at here
    obtain ⟨_, value, _, isText⟩ := published.named r mem
    rw [isText] at spelled
    cases spelled
    by_cases named : r.name = .string name
    · exact .inl ⟨(own named).mp here.2, r, mem, here.1, named, text, isText, ok⟩
    · exact .inr ⟨r, mem, here.1, named, here.2, text, isText, ok⟩
  · have found {r : DnsRecord} (mem : r ∈ records) (type : r.type = "TXT")
        (here : r.standsAt domain (qualified name domain) = true) {text : String}
        (isText : r.value = .string text) : text ∈ textsAt records domain (qualified name domain) :=
      List.mem_filterMap.mpr
        ⟨r, List.mem_filter.mpr ⟨mem, by simp [type, here]⟩, by rw [isText]; rfl⟩
    rintro (⟨meets, r, mem, type, named, text, isText, ok⟩ |
      ⟨r, mem, type, _, here, text, isText, ok⟩)
    · exact ⟨text, found mem type ((own named).mpr meets) isText, ok⟩
    · exact ⟨text, found mem type here isText, ok⟩

/-- A payload that names everything that is checked. -/
structure DnsRequirements.Names (q : DnsRequirements) (selector key token : String) : Prop where
  hosts : q.hosts ≠ []
  spf : q.spf.truthy = true
  selector : q.selectorName = .string selector ∧ selector ≠ ""
  key : q.dkimValue = .string key ∧ key ≠ ""
  token : q.tokenName = .string token ∧ token ≠ ""

/-- What the checks want to find is listed where they look for it. -/
structure Followable (rt : Runtime) (domain : String) (records : List DnsRecord)
    (selector key token : String) : Prop where
  mx : NamesExchangers records
  spf : OneAuthorises rt (textsAt records domain domain)
  dkim : Meets domain selector ∨
    StandsIn domain records selector fun text => normaliseTxt text = normaliseTxt key
  token : (Meets domain token ∧
      ListedUnder records token fun text => normaliseTxt text = "domain-verified") ∨
    StandsIn domain records token fun text => normaliseTxt text = "domain-verified"

/-- An operator who publishes the listed records, and no others, passes the checks exactly
if the list has what the checks look for. -/
theorem instructions_suffice_iff (rt : Runtime) (lower : LowersNames rt.lower) (str : Json → String)
    {domain : String} {dnsInfo : Json} {records : List DnsRecord} {zone : Resolver}
    {q : DnsRequirements} {selector key token : String} (asked : dnsRequirements dnsInfo = .ok q)
    (names : q.Names selector key token)
    (listed : requiredDnsRecords str domain dnsInfo = .ok records)
    (published : Publishes domain records zone) :
    (∃ report, verifyDomain rt domain dnsInfo zone = .ok report ∧ report.Passes) ↔
      Followable rt domain records selector key token := by
  have mx := checkMx_published lower published listed (dnsRequirements_eq_ok.mp asked).hosts
    names.hosts
  have spf := checkSpf_published rt published q.spf
  have dkim := checkDkim_published published names.selector.2 names.key.2
  have ownership := checkOwnership_published published names.token.2
  have keyed : ListedUnder records selector fun text => normaliseTxt text = normaliseTxt key := by
    obtain ⟨r, mem, type, named, value⟩ := listed_key listed asked names.selector.1 names.key.1
      names.selector.2 names.key.2
    exact ⟨r, mem, type, named, _, value, normaliseTxt_unquoted key⟩
  rw [← names.selector.1, ← names.key.1, textsAt_qualified_iff published,
    and_iff_left keyed] at dkim
  rw [← names.token.1, textsAt_qualified_iff published] at ownership
  constructor
  · rintro ⟨report, verified, passes⟩
    obtain ⟨q', mx', spf', dkim', dmarc', ownership', asked', made, rfl⟩ :=
      checked_of_verifyDomain rt verified
    cases asked.symm.trans asked'
    exact ⟨mx.mp ⟨mx', made.mx, passes "mx" (by simp)⟩,
      spf.mp ⟨spf', made.spf, passes "spf" (by simp)⟩,
      dkim.mp ⟨dkim', made.dkim, passes "dkim" (by simp)⟩,
      ownership.mp ⟨ownership', made.ownership, passes "ownership" (by simp)⟩⟩
  · intro followable
    obtain ⟨mx', mxMade, mxPasses⟩ := mx.mpr followable.mx
    obtain ⟨spf', spfMade, spfPasses⟩ := spf.mpr followable.spf
    obtain ⟨dkim', dkimMade, dkimPasses⟩ := dkim.mpr followable.dkim
    obtain ⟨ownership', ownershipMade, ownershipPasses⟩ := ownership.mpr followable.token
    obtain ⟨dmarc', dmarcMade⟩ := checkDmarc_published rt published
    refine ⟨_, verifyDomain_of_checks asked
      ⟨mxMade, spfMade, dkimMade, dmarcMade, ownershipMade⟩, ?_⟩
    simp only [DomainDnsReport.Passes, List.forall_mem_cons]
    exact ⟨ownershipPasses, mxPasses, spfPasses, dkimPasses, List.forall_mem_nil _⟩

end Checks
namespace Sample

/-- The answer that carries the given texts. -/
def answerTexts (texts : List String) : Lookup TxtRecord :=
  if texts = [] then .absent
  else .answered (texts.map fun text => ⟨[text.toList.map fun c => .ofNat c.toNat]⟩)

/-- The zone of the shop, with the given records of text. -/
def zone (records : List DnsRecord) : Resolver where
  mx name := if sameName "shop.example" name then .answered [⟨10, "mx.example."⟩] else .absent
  spf name := answerTexts (textsAt records "shop.example" name).dedup
  dkim name := answerTexts (textsAt records "shop.example" name).dedup
  dmarc name := answerTexts (textsAt records "shop.example" name).dedup
  ownership name := answerTexts (textsAt records "shop.example" name).dedup

def ascii (s : String) : Bool := s.toList.all fun c => c.toNat < 128

theorem decodeUtf8_ascii {l : List Char} (h : l.all (fun c => decide (c.toNat < 128)) = true) :
    decodeUtf8 (l.map fun c => UInt8.ofNat c.toNat) = some l := by
  induction l with
  | nil => rfl
  | cons c l ih =>
      simp only [List.all_cons, Bool.and_eq_true, decide_eq_true_eq] at h
      have small : (UInt8.ofNat c.toNat).toNat = c.toNat :=
        UInt8.toNat_ofNat_of_lt' (Nat.lt_trans h.1 (by decide))
      have lead : UInt8.ofNat c.toNat < 0x80 := by
        rw [UInt8.lt_iff_toNat_lt, small]
        exact h.1
      rw [List.map_cons, decodeUtf8.eq_def]
      simp only [lead, if_true, ih h.2, small, Option.map_some, Char.ofNat_toNat]

theorem resolveTxt_answerTexts {texts : List String} (h : ∀ text ∈ texts, ascii text = true) :
    resolveTxt (answerTexts texts) = .ok (.ok texts) := by
  have spelled : (texts.map fun text =>
      (⟨[text.toList.map fun c => UInt8.ofNat c.toNat]⟩ : TxtRecord)).mapM TxtRecord.text? =
        some texts := by
    induction texts with
    | nil => rfl
    | cons text texts ih =>
        rw [List.forall_mem_cons] at h
        rw [List.map_cons, List.mapM_cons, ih h.2]
        simp [TxtRecord.text?, decodeUtf8_ascii h.1]
  unfold answerTexts
  split
  · rename_i unanswered
    rw [unanswered]
    rfl
  · dsimp only [resolveTxt, resolve]
    rw [spelled]

/-- What a payload with this SPF value asks for. -/
def listed (spf : String) : List DnsRecord :=
  [⟨"MX", .string "@", .string "mx.example", "10"⟩, apex (.string spf),
    ⟨"TXT", .string "x._domainkey", .string "v=DKIM1; p=AAAA", ""⟩,
    ⟨"TXT", .string "_da-verify", .string "domain-verified", ""⟩, dmarcRecord]

theorem publishes {spf : String} (plain : ascii spf = true) :
    Publishes "shop.example" (listed spf) (zone (listed spf)) where
  named := by simp [listed, apex, dmarcRecord]
  mail := by
    simp only [listed, List.forall_mem_cons]
    refine ⟨fun _ => ⟨by decide, fun host value => ?_⟩, ?_⟩
    · cases value
      decide
    · simp [apex, dmarcRecord]
  mx name := by
    have shown : exchangersAt (listed spf) "shop.example" name =
        if sameName "shop.example" name then ["10 mx.example"] else [] := by
      cases here : sameName "shop.example" name <;>
        simp [exchangersAt, listed, apex, dmarcRecord, DnsRecord.standsAt,
          Json.text?, absolute, here]
      decide
    rw [shown]
    cases here : sameName "shop.example" name with
    | true => exact ⟨["10 mx.example"], by simp [zone, here]; decide, by simp⟩
    | false => exact ⟨[], by simp [zone, here, resolveMx, resolve], by simp⟩
  txt lookup mem name := by
    have same : lookup = (zone (listed spf)).spf := by
      simpa [zone] using mem
    subst same
    refine ⟨(textsAt (listed spf) "shop.example" name).dedup,
      resolveTxt_answerTexts fun text there => ?_, List.nodup_dedup _, fun v => List.mem_dedup⟩
    obtain ⟨r, mem, value⟩ := List.mem_filterMap.mp (List.mem_dedup.mp there)
    have all : (listed spf).all (fun r => r.value.text?.all ascii) = true := by
      simp [listed, apex, dmarcRecord, Json.text?, plain]
      decide
    have := List.all_eq_true.mp all r (List.mem_filter.mp mem).1
    rw [value] at this
    exact this

def ownSpf : String := "v=spf1 include:mxroute.com -all"

/-- The provider names another host that sends for the domain. -/
def otherSpf : String := "v=spf1 include:spf.mxroute.com -all"

def payloadWith (spf : String) : Json := .object [
  ("mx_records", .array [.object [("priority", .number 10), ("hostname", .string "mx.example")]]),
  ("spf", .object [("value", .string spf)]),
  ("dkim", .object [("name", .string "x._domainkey"), ("value", .string "v=DKIM1; p=AAAA")]),
  ("verification", .object [("name", .string "_da-verify"), ("value", .string "domain-verified")])]

theorem payload_names {spf : String} (nonempty : spf ≠ "") :
    dnsRequirements (payloadWith spf) = .ok { requirements with spf := .string spf } ∧
      { requirements with spf := .string spf }.Names "x._domainkey" "v=DKIM1; p=AAAA"
        "_da-verify" :=
  ⟨rfl, ⟨by simp [requirements], by simp [nonempty], ⟨rfl, by decide⟩, ⟨rfl, by decide⟩,
    ⟨rfl, by decide⟩⟩⟩

theorem payload_listed {spf : String} (nonempty : spf ≠ "") :
    requiredDnsRecords (fun _ => "10") "shop.example" (payloadWith spf) = .ok (listed spf) := by
  have truthy : (Json.string spf).truthy = true := by simp [nonempty]
  show Except.ok
    (_ ++ (if (Json.string spf).truthy = true then [apex (.string spf)] else []) ++ _ ++
    _ ++ _) = _
  rw [if_pos truthy]
  rfl

end Sample

/-- The record of another host is listed, and not accepted. -/
theorem other_spf_refused :
    Publishes "shop.example" (Sample.listed Sample.otherSpf)
        (Sample.zone (Sample.listed Sample.otherSpf)) ∧
      requiredDnsRecords (fun _ => "10") "shop.example" (Sample.payloadWith Sample.otherSpf) =
        .ok (Sample.listed Sample.otherSpf) ∧
      dnsRequirements (Sample.payloadWith Sample.otherSpf) =
        .ok { Sample.requirements with spf := .string Sample.otherSpf } ∧
      { Sample.requirements with spf := .string Sample.otherSpf }.Names "x._domainkey"
        "v=DKIM1; p=AAAA" "_da-verify" ∧
      ¬ ∃ report, verifyDomain Sample.runtime "shop.example" (Sample.payloadWith Sample.otherSpf)
        (Sample.zone (Sample.listed Sample.otherSpf)) = .ok report ∧ report.Passes := by
  refine ⟨Sample.publishes (by decide), Sample.payload_listed (by decide),
    (Sample.payload_names (by decide)).1, (Sample.payload_names (by decide)).2, ?_⟩
  rintro ⟨report, verified, passes⟩
  have fails : ((verifyDomain Sample.runtime "shop.example" (Sample.payloadWith Sample.otherSpf)
      (Sample.zone (Sample.listed Sample.otherSpf))).toOption.bind fun report =>
        report.checks.get? "spf").any RecordCheck.ok = false := by decide +kernel
  rw [verified] at fails
  exact absurd ((passes "spf" (by simp)).symm.trans fails) (by decide)

theorem own_spf_accepted :
    ∃ report, verifyDomain Sample.runtime "shop.example" (Sample.payloadWith Sample.ownSpf)
      (Sample.zone (Sample.listed Sample.ownSpf)) = .ok report ∧ report.Passes := by
  refine (instructions_suffice_iff Sample.runtime ⟨fun _ => rfl, fun _ => id⟩ (fun _ => "10")
    (Sample.payload_names (by decide)).1 (Sample.payload_names (by decide)).2
    (Sample.payload_listed (by decide)) (Sample.publishes (by decide))).mpr ?_
  have apexTexts : textsAt (Sample.listed Sample.ownSpf) "shop.example" "shop.example" =
      [Sample.ownSpf] := by decide +kernel
  refine ⟨?_, ⟨Sample.ownSpf, by decide +kernel, fun other => ?_⟩,
    .inl (meets_of_relative (by decide) (by decide)),
    .inl ⟨meets_of_relative (by decide) (by decide), ?_⟩⟩
  · simp [NamesExchangers, Sample.listed, apex, dmarcRecord]
    decide
  · rw [apexTexts, List.mem_singleton]
    have begins : startsWith "v=spf1" (Sample.runtime.lower (strip Sample.ownSpf)) = true := by
      decide +kernel
    exact ⟨And.left, fun same => ⟨same, same ▸ begins⟩⟩
  · exact ⟨⟨"TXT", .string "_da-verify", .string "domain-verified", ""⟩, by simp [Sample.listed],
      rfl,
      rfl, "domain-verified", rfl, by decide⟩

end Emaild
