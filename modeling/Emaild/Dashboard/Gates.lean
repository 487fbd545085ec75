import Emaild.Errors
import Emaild.Text.Base64
import Emaild.Text.Url

/-!
The two gates in front of every change from the dashboard: the password of the request, and
the token of the form with the site it comes from. Comparisons in constant time are of ASCII
texts only, and the URL parser refuses some authorities.
-/
namespace Emaild
open Text

/-- The headers that the gates read, as the bytes that arrive. -/
structure GateHeaders where
  authorization : Option (List UInt8) := none
  origin : Option (List UInt8) := none
  referer : Option (List UInt8) := none
  host : Option (List UInt8) := none

/-- `request.headers.get(name, "")`: there is a character for every byte. -/
def headerText (value : Option (List UInt8)) : String :=
  .ofList ((value.getD []).map fun b => .ofNat b.toNat)

/-- What HMAC-SHA-256 makes of a key and a message. -/
structure HmacSha256 where
  digest : (key message : List UInt8) → List UInt8
  length : ∀ key message, (digest key message).length = 32

/-- `digest.hex()` -/
def hex (bytes : List UInt8) : String :=
  .ofList (bytes.flatMap fun b => [Nat.digitChar (b.toNat / 16), Nat.digitChar (b.toNat % 16)])

/-- `hmac.compare_digest`, of two texts. -/
def compareDigest (a b : String) : Except Raised Bool :=
  if Text.isAscii a && Text.isAscii b then .ok (a = b) else .error (.builtin "TypeError")

structure GateResponse where
  statusCode : Nat
  content : String
  headers : List (String × String)
  mediaType : String
  deriving DecidableEq

/-- `_unauthorised` -/
def unauthorised : GateResponse where
  statusCode := 401
  content := "Authentication required."
  headers := [("WWW-Authenticate", "Basic realm=\"emaild dashboard\"")]
  mediaType := "text/plain"

/-- The password that an `Authorization` header presents: what follows the first colon of the
decoded credentials. -/
def basicPassword? (header : String) : Option String :=
  let (scheme, encoded) := partition ' ' header
  if scheme.toList.map Char.toLower ≠ "basic".toList ∨ encoded = "" then none
  else (b64decode encoded).map fun bytes =>
    (partition ':' (.ofList (decodeReplacing none bytes))).2

/-- `get("origin") or get("referer")` -/
def GateHeaders.stated (headers : GateHeaders) : String :=
  if headerText headers.origin ≠ "" then headerText headers.origin else headerText headers.referer

/-- `_origin_is_same` -/
def originIsSame (headers : GateHeaders) : Except Raised Bool :=
  if headers.stated = "" then .ok true
  else if headerText headers.host = "" then .ok false
  else match netloc? headers.stated with
    | none => .error (.builtin "ValueError")
    | some netloc => .ok (netloc = headerText headers.host)

def crossSite : String :=
  "This request came from another site. If you reached this page from " ++
    "a link somewhere else, open the dashboard directly and try again."

def staleForm : String :=
  "This form has expired or was not submitted from the dashboard. " ++
    "Reload the page and try again."

/-- What the gates know besides the request. -/
structure Gatekeeper where
  dashboardToken : Option String
  processSecret : String
  hmac : HmacSha256

namespace Gatekeeper

/-- `check_dashboard_auth` -/
def checkDashboardAuth (g : Gatekeeper) (headers : GateHeaders) :
    Except Raised (Option GateResponse) :=
  let token := orEmpty g.dashboardToken
  if token = "" then .ok none
  else match basicPassword? (headerText headers.authorization) with
    | none => .ok (some unauthorised)
    | some presented => do
        if ← compareDigest presented token then return none else return some unauthorised

/-- `settings.dashboard_token or _PROCESS_SECRET` -/
def secret (g : Gatekeeper) : String :=
  if orEmpty g.dashboardToken = "" then g.processSecret else orEmpty g.dashboardToken

/-- `issue_token` -/
def issueToken (g : Gatekeeper) : String :=
  hex (g.hmac.digest (utf8 g.secret) (utf8 "emaild-dashboard-csrf-v1"))

/-- `verify` -/
def verify (g : Gatekeeper) (headers : GateHeaders) (submitted : Option String) :
    Except Raised (Option String) := do
  if ← originIsSame headers then
    let submitted := orEmpty submitted
    if submitted = "" then return some staleForm
    else if ← compareDigest submitted g.issueToken then return none else return some staleForm
  else return some crossSite

end Gatekeeper

/-! What reaches a comparison. -/

theorem isAscii_hex (bytes : List UInt8) : Text.isAscii (hex bytes) = true := by
  have digit : ∀ n < 16, (Nat.digitChar n).toNat < 128 := by decide
  simp only [Text.isAscii, hex, String.toList_ofList, List.all_eq_true, List.mem_flatMap,
    decide_eq_true_eq]
  rintro c ⟨b, -, mem⟩
  have small := b.toNat_lt
  rcases List.mem_cons.mp mem with rfl | mem
  · exact digit _ (by omega)
  · rw [List.mem_singleton.mp mem]
    exact digit _ (by omega)

theorem hex_ne_empty {bytes : List UInt8} (nonempty : bytes ≠ []) : hex bytes ≠ "" := by
  intro empty
  obtain ⟨b, rest, rfl⟩ := List.exists_cons_of_ne_nil nonempty
  simpa [hex] using congrArg String.toList empty

theorem Gatekeeper.issueToken_ne_empty (g : Gatekeeper) : g.issueToken ≠ "" := by
  refine hex_ne_empty (List.ne_nil_of_length_pos ?_)
  rw [g.hmac.length]
  decide

theorem compareDigest_ascii {a b : String} (ascii : Text.isAscii a = true)
    (ascii' : Text.isAscii b = true) : compareDigest a b = .ok (a = b) := by
  rw [compareDigest, ascii, ascii']
  rfl

theorem compareDigest_foreign {a b : String} (foreign : Text.isAscii a = false) :
    compareDigest a b = .error (.builtin "TypeError") := by
  rw [compareDigest, foreign]
  rfl

/-- An `Origin` or else a `Referer` is absent, or names the host. -/
def GateHeaders.NamesHost (headers : GateHeaders) : Prop :=
  headers.stated ≠ "" →
    headerText headers.host ≠ "" ∧ netloc? headers.stated = some (headerText headers.host)

instance (headers : GateHeaders) : Decidable headers.NamesHost :=
  inferInstanceAs (Decidable (_ → _))

/-- The URL of the origin is looked at, and is refused. -/
def GateHeaders.Misstated (headers : GateHeaders) : Prop :=
  headers.stated ≠ "" ∧ headerText headers.host ≠ "" ∧
    bracketsFit (netlocOf headers.stated) = false

theorem originIsSame_of_misstated {headers : GateHeaders} (h : headers.Misstated) :
    originIsSame headers = .error (.builtin "ValueError") := by
  obtain ⟨stated, host, misfit⟩ := h
  rw [originIsSame, if_neg stated, if_neg host, netloc?_eq, misfit]
  rfl

theorem originIsSame_eq {headers : GateHeaders} (h : ¬ headers.Misstated) :
    originIsSame headers = .ok headers.NamesHost := by
  unfold originIsSame GateHeaders.NamesHost
  by_cases stated : headers.stated = ""
  · simp [stated]
  by_cases host : headerText headers.host = ""
  · simp [stated, host]
  have fits : bracketsFit (netlocOf headers.stated) = true := by
    by_contra misfit
    exact h ⟨stated, host, Bool.eq_false_iff.mpr misfit⟩
  simp [stated, host, netloc?_eq, fits]

namespace Gatekeeper
variable {g : Gatekeeper} {headers : GateHeaders} {submitted : Option String}

/-- The gates let through what has the token, and refuse everything else. -/
structure Exact (g : Gatekeeper) (headers : GateHeaders) (submitted : Option String) : Prop where
  challenge : g.checkDashboardAuth headers =
    .ok (if basicPassword? (headerText headers.authorization) = g.dashboardToken then none
      else some unauthorised)
  refusal : ∃ answer, g.verify headers submitted = .ok answer ∧
    (answer = none ↔ submitted = some g.issueToken ∧ headers.NamesHost)

/-- Nothing is compared that is not ASCII, and no URL is refused. An empty token asks for no
password, so only the request that presents the empty one is answered as if it did. -/
structure Digestible (g : Gatekeeper) (headers : GateHeaders)
    (submitted : Option String) : Prop where
  unasked : g.dashboardToken = some "" → basicPassword? (headerText headers.authorization) = some ""
  password : g.dashboardToken ≠ some "" →
    ∀ presented, basicPassword? (headerText headers.authorization) = some presented →
      Text.isAscii presented = true
  origin : ¬ headers.Misstated
  form : headers.NamesHost → ∀ text, submitted = some text → Text.isAscii text = true

theorem checkDashboardAuth_open (empty : g.dashboardToken = some "") :
    g.checkDashboardAuth headers = .ok none := by
  rw [checkDashboardAuth, empty]
  rfl

theorem checkDashboardAuth_foreign {token presented : String} (asked : token ≠ "")
    (configured : g.dashboardToken = some token)
    (decoded : basicPassword? (headerText headers.authorization) = some presented)
    (foreign : Text.isAscii presented = false) :
    g.checkDashboardAuth headers = .error (.builtin "TypeError") := by
  simp only [checkDashboardAuth, configured, orEmpty, asked, if_false, decoded,
    compareDigest_foreign foreign]
  rfl

/-- The password decides when it can be compared. -/
theorem checkDashboardAuth_eq {token : String} (asked : token ≠ "")
    (configured : g.dashboardToken = some token) (ascii : Text.isAscii token = true)
    (comparable : ∀ presented, basicPassword? (headerText headers.authorization) = some presented →
      Text.isAscii presented = true) :
    g.checkDashboardAuth headers =
      .ok (if basicPassword? (headerText headers.authorization) = g.dashboardToken then none
        else some unauthorised) := by
  simp only [checkDashboardAuth, configured, orEmpty, asked, if_false]
  cases decoded : basicPassword? (headerText headers.authorization) with
  | none => rfl
  | some presented =>
      simp only [compareDigest_ascii (comparable presented decoded) ascii, Option.some.injEq]
      by_cases same : presented = token <;> simp [same] <;> rfl

theorem verify_misstated (h : headers.Misstated) :
    g.verify headers submitted = .error (.builtin "ValueError") := by
  rw [verify, originIsSame_of_misstated h]
  rfl

theorem verify_foreign {text : String} (stated : ¬ headers.Misstated) (names : headers.NamesHost)
    (given : submitted = some text) (foreign : Text.isAscii text = false) :
    g.verify headers submitted = .error (.builtin "TypeError") := by
  have nonempty : text ≠ "" := fun empty => by simp [empty, Text.isAscii] at foreign
  simp only [verify, originIsSame_eq stated, names, given, orEmpty, nonempty,
    compareDigest_foreign foreign]
  rfl

/-- The token of the form and the origin decide when they can be compared. -/
theorem verify_eq (stated : ¬ headers.Misstated)
    (comparable : headers.NamesHost → ∀ text, submitted = some text → Text.isAscii text = true) :
    ∃ answer, g.verify headers submitted = .ok answer ∧
      (answer = none ↔ submitted = some g.issueToken ∧ headers.NamesHost) := by
  by_cases names : headers.NamesHost
  case neg =>
    refine ⟨some crossSite, ?_, by simp [names]⟩
    simp only [verify, originIsSame_eq stated, names]
    rfl
  have passed : originIsSame headers = .ok true := by simp [originIsSame_eq stated, names]
  cases submitted with
  | none => exact ⟨some staleForm, by rw [verify, passed]; rfl, by simp⟩
  | some text =>
      by_cases empty : text = ""
      · subst empty
        exact ⟨some staleForm, by rw [verify, passed]; rfl, by simp [g.issueToken_ne_empty.symm]⟩
      · refine ⟨if text = g.issueToken then none else some staleForm, ?_, by simp [names]⟩
        have compared : compareDigest text g.issueToken = .ok (text = g.issueToken) :=
          compareDigest_ascii (comparable names text rfl) (isAscii_hex _)
        simp only [verify, passed, orEmpty, empty, if_false, compared]
        by_cases same : text = g.issueToken
        · rw [if_pos same, decide_eq_true same]
          rfl
        · rw [if_neg same, decide_eq_false same]
          rfl

/-- The gates are total and exact as long as nothing reaches them that cannot be digested. -/
theorem exact_iff_digestible {token : String} (configured : g.dashboardToken = some token)
    (ascii : Text.isAscii token = true) (headers : GateHeaders) (submitted : Option String) :
    g.Exact headers submitted ↔ g.Digestible headers submitted := by
  constructor
  · rintro ⟨challenge, answer, answered, -⟩
    have stated : ¬ headers.Misstated := fun misstated => by
      rw [verify_misstated misstated] at answered
      cases answered
    refine ⟨fun empty => ?_, fun asked presented decoded => ?_, stated, fun names text given => ?_⟩
    · rw [checkDashboardAuth_open empty, empty] at challenge
      by_contra other
      simp [other] at challenge
    · by_contra foreign
      have nonempty : token ≠ "" := fun empty => asked (by rw [configured, empty])
      rw [checkDashboardAuth_foreign nonempty configured decoded (Bool.eq_false_iff.mpr foreign)]
        at challenge
      cases challenge
    · by_contra foreign
      rw [verify_foreign stated names given (Bool.eq_false_iff.mpr foreign)] at answered
      cases answered
  · rintro ⟨unasked, password, origin, form⟩
    refine ⟨?_, verify_eq origin form⟩
    by_cases empty : token = ""
    · subst empty
      rw [checkDashboardAuth_open configured, unasked configured, configured, if_pos rfl]
    · exact checkDashboardAuth_eq empty configured ascii
        (password fun other => empty (Option.some.inj (configured.symm.trans other)))

end Gatekeeper

namespace Sample

theorem keyed_length (key message : List UInt8) :
    (if key = utf8 "hunter2" ∧ message = utf8 "emaild-dashboard-csrf-v1" then
      [11, 176, 38, 25, 175, 229, 48, 72, 122, 158, 115, 78, 42, 228, 235, 7, 178, 247, 199, 196,
        121, 133, 125, 116, 46, 205, 185, 131, 68, 218, 217, 32]
    else List.replicate 32 (0 : UInt8)).length = 32 := by
  split <;> rfl

/-- A dashboard with the token `hunter2`, and what is derived from it. -/
def hunter : Gatekeeper where
  dashboardToken := some "hunter2"
  processSecret := "process"
  hmac := { digest := _, length := keyed_length }

end Sample

namespace Gatekeeper
open Sample

theorem hunter_admits_admin :
    hunter.Exact { authorization := some (utf8 "Basic YWRtaW46aHVudGVyMg==") } none := by
  have decoded : basicPassword? (headerText (some (utf8 "Basic YWRtaW46aHVudGVyMg=="))) =
      some "hunter2" := by decide
  exact (exact_iff_digestible rfl (by decide) _ _).mpr {
    unasked := fun empty => absurd empty (by decide)
    password := fun _ presented given => by
      rw [decoded, Option.some.injEq] at given
      rw [← given]
      decide
    origin := fun misstated => misstated.1 rfl
    form := fun _ _ given => absurd given (by simp) }

/-- A password, a form token and an origin that end in an exception. -/
theorem foreign_text_escapes :
    ¬ hunter.Exact { authorization := some (utf8 "Basic OsO8") } none ∧
      ¬ hunter.Exact {} (some "ü") ∧
      ¬ hunter.Exact { origin := some (utf8 "http://["), host := some (utf8 "mail") } none := by
  refine ⟨fun exact => ?_, fun exact => ?_, fun exact => ?_⟩
  · exact absurd exact.challenge (by decide)
  · obtain ⟨answer, answered, -⟩ := exact.refusal
    cases answered
  · obtain ⟨answer, answered, -⟩ := exact.refusal
    rw [verify_misstated ⟨by decide, by decide, by decide⟩] at answered
    cases answered

end Gatekeeper

/-! What a browser sends is let through. -/

theorem headerText_utf8 {text : String} (ascii : Text.isAscii text = true) :
    headerText (some (utf8 text)) = text := by
  refine String.ext ?_
  rw [headerText, String.toList_ofList, Option.getD_some, utf8]
  have low : ∀ c ∈ text.toList, c.toNat < 128 := by simpa [Text.isAscii] using ascii
  generalize text.toList = chars at low ⊢
  induction chars with
  | nil => rfl
  | cons c rest ih =>
      obtain ⟨small, low⟩ := List.forall_mem_cons.mp low
      have one : String.utf8EncodeChar c = [.ofNat c.toNat] := if_pos (Nat.le_of_lt_succ small)
      have back : Char.ofNat (UInt8.ofNat c.toNat).toNat = c := by
        rw [toNat_byte (by omega), Char.ofNat_toNat]
      rw [List.flatMap_cons, one, List.map_append, ih low, List.map_singleton, back]
      rfl

/-- The credentials of a user, as they are sent. -/
def basicCredentials (user password : String) : String :=
  "Basic" ++ String.singleton ' ' ++
    .ofList (b64encode (utf8 (user ++ String.singleton ':' ++ password)))

theorem isAscii_basicCredentials (user password : String) :
    Text.isAscii (basicCredentials user password) = true := by
  simp only [Text.isAscii, basicCredentials, String.toList_append, String.toList_singleton,
    String.toList_ofList, List.all_append, Bool.and_eq_true]
  exact ⟨⟨by decide, by decide⟩, by simpa using b64encode_ascii⟩

theorem basicPassword?_basicCredentials {user : String} (noColon : ':' ∉ user.toList)
    (password : String) : basicPassword? (basicCredentials user password) = some password := by
  have parts : partition ' ' (basicCredentials user password) =
      ("Basic", .ofList (b64encode (utf8 (user ++ String.singleton ':' ++ password)))) :=
    partition_append (by decide)
  have decoded := b64decode_b64encode (utf8 (user ++ String.singleton ':' ++ password))
  have present : b64encode (utf8 (user ++ String.singleton ':' ++ password)) ≠ [] := by
    intro empty
    rw [empty] at decoded
    have text := congrArg (Option.map (decodeReplacing none)) decoded
    simp [decodeReplacing_utf8, b64decode, Text.isAscii, a2bBase64, decodeReplacing] at text
  simp only [basicPassword?, parts]
  rw [if_neg (by simpa using present), decoded, Option.map_some, decodeReplacing_utf8,
    String.ofList_toList, partition_append noColon]

namespace Gatekeeper
variable {g : Gatekeeper}

/-- A form of the dashboard, submitted from where it was shown by one who knows the token. -/
theorem own_form_passes {token user scheme host : String}
    (configured : g.dashboardToken = some token)
    (ascii : Text.isAscii token = true) (noColon : ':' ∉ user.toList)
    (valid : isScheme scheme.toList = true) (asciiHost : Text.isAscii host = true)
    (named : host ≠ "")
    (plain : ∀ c ∈ host.toList, 0x20 < c.toNat ∧ c ∉ "/?#[]".toList) {headers : GateHeaders}
    (authorization : headers.authorization = some (utf8 (basicCredentials user token)))
    (origin : headers.origin = some (utf8 (scheme ++ "://" ++ host)))
    (sentTo : headers.host = some (utf8 host)) :
    g.checkDashboardAuth headers = .ok none ∧ g.verify headers (some g.issueToken) = .ok none := by
  have password : basicPassword? (headerText headers.authorization) = some token := by
    rw [authorization, headerText_utf8 (isAscii_basicCredentials user token),
      basicPassword?_basicCredentials noColon]
  have address : Text.isAscii (scheme ++ "://" ++ host) = true := by
    have chars := (isScheme_spec valid).2
    simp only [Text.isAscii, String.toList_append, List.all_append, Bool.and_eq_true] at asciiHost ⊢
    exact ⟨⟨List.all_eq_true.mpr fun c mem => decide_eq_true (chars c mem).2.1, by decide⟩,
      asciiHost⟩
  have stated : headers.stated = scheme ++ "://" ++ host := by
    rw [GateHeaders.stated, origin, headerText_utf8 address, if_pos (by simp)]
  have hosted : headerText headers.host = host := by rw [sentTo, headerText_utf8 asciiHost]
  have netloc : netlocOf headers.stated = host.toList := by
    have text : scheme ++ "://" ++ host =
        .ofList (scheme.toList ++ ':' :: '/' :: '/' :: host.toList) :=
      String.ext (by simp)
    rw [stated, text]
    exact netlocOf_origin valid fun c mem =>
      ⟨(plain c mem).1, fun ends => (plain c mem).2 (by simp_all)⟩
  have fits : bracketsFit (netlocOf headers.stated) = true := by
    have absent (bracket : Char) (kind : bracket ∈ "[]".toList) :
        host.toList.contains bracket = false := by
      refine Bool.eq_false_iff.mpr fun mem => (plain bracket (List.contains_iff_mem.mp mem)).2 ?_
      simp_all
    rw [netloc, bracketsFit, absent '[' (by decide), absent ']' (by decide)]
    rfl
  have names : headers.NamesHost := fun _ => by
    rw [hosted, netloc?_eq, fits, netloc, if_pos rfl, String.ofList_toList]
    exact ⟨named, rfl⟩
  obtain ⟨challenge, answer, answered, passes⟩ :=
    (exact_iff_digestible configured ascii headers (some g.issueToken)).mpr {
      unasked := fun empty => by rw [password, ← configured, empty]
      password := fun _ presented decoded => by
        rw [password, Option.some.injEq] at decoded
        rw [← decoded, ascii]
      origin := fun misstated => by
        have misfit := misstated.2.2
        rw [fits] at misfit
        cases misfit
      form := fun _ text given => by rw [← Option.some.inj given]; exact isAscii_hex _ }
  rw [password, configured, if_pos rfl] at challenge
  exact ⟨challenge, by rw [answered, passes.mpr ⟨rfl, names⟩]⟩

end Gatekeeper

end Emaild
