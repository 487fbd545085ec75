import Mathlib.Data.Bool.AllAny
import Mathlib.Data.List.TakeWhile
import Emaild.Text.Python

/-!
The authority of a URL as it is split off: what stands between two slashes and the next
slash, question mark or number sign. Brackets in it must hold an address of version 6 or
of a version to come. Characters are those of one byte.
-/
namespace Text

/-- `IPv4Address._parse_octet` -/
def isOctet (text : List Char) : Bool :=
  !text.isEmpty && text.all Char.isDigit && text.length ≤ 3 &&
    (text = ['0'] || text.head? ≠ some '0') &&
    text.foldl (fun n c => 10 * n + (c.toNat - '0'.toNat)) 0 ≤ 255

/-- `IPv4Address._ip_int_from_string` -/
def isIPv4 (text : List Char) : Bool :=
  (text.splitOn '.').length = 4 && (text.splitOn '.').all isOctet

/-- `IPv6Address._parse_hextet` -/
def isHextet (text : List Char) : Bool :=
  !text.isEmpty && text.all isHexDigit && text.length ≤ 4

/-- The parts between colons, an address of version 4 at the end read as two of them. -/
def hextets? (text : List Char) : Option (List (List Char)) :=
  let parts := text.splitOn ':'
  match parts.getLast? with
  | some last =>
      if parts.length < 3 then none
      else if '.' ∈ last then
        if isIPv4 last then some (parts.dropLast ++ [['0'], ['0']]) else none
      else some parts
  | none => none

/-- `IPv6Address._ip_int_from_string`: a part that is empty stands for the parts that are
missing, and at an end it is one only next to another one. -/
def isIPv6Number (text : List Char) : Bool :=
  match hextets? text with
  | none => false
  | some parts =>
      let inner := parts.tail.dropLast
      let first := parts.headD []
      let last := parts.getLastD []
      match inner.countP List.isEmpty with
      | 0 => parts.length = 8 && parts.all isHextet
      | 1 =>
          let skip := 1 + inner.idxOf []
          let high := if first.isEmpty then skip - 1 else skip
          let low := parts.length - skip - 1 - (if last.isEmpty then 1 else 0)
          parts.length ≤ 9 && (!first.isEmpty || high = 0) && (!last.isEmpty || low = 0) &&
            high + low < 8 &&
            (parts.take high).all isHextet && (parts.drop (parts.length - low)).all isHextet
      | _ => false

/-- `IPv6Address`: a zone may follow the number. -/
def isIPv6 (text : List Char) : Bool :=
  !text.contains '/' &&
    match text.dropWhile (· ≠ '%') with
    | [] => isIPv6Number text
    | _ :: zone => !zone.isEmpty && !zone.contains '%' && isIPv6Number (text.takeWhile (· ≠ '%'))

/-- The pattern of an address of a version to come. -/
def isIPvFuture (text : List Char) : Bool :=
  match text with
  | 'v' :: rest =>
      !(rest.takeWhile isHexDigit).isEmpty &&
        match rest.dropWhile isHexDigit with
        | '.' :: address => !address.isEmpty && !address.contains '\n'
        | _ => false
  | _ => false

/-- `_check_bracketed_host` -/
def checkBracketedHost (host : List Char) : Bool :=
  if host.head? = some 'v' then isIPvFuture host else isIPv6 host

/-- What stands behind the first opening bracket, up to a closing one. -/
def bracketed (netloc : List Char) : List Char :=
  ((netloc.dropWhile (· ≠ '[')).drop 1).takeWhile (· ≠ ']')

/-- Brackets are there together, and around what may stand in them. -/
def bracketsFit (netloc : List Char) : Bool :=
  netloc.contains '[' == netloc.contains ']' &&
    (!netloc.contains '[' || checkBracketedHost (bracketed netloc))

/-- The compatibility decomposition of a character of one byte. -/
def compatibility (c : Char) : List Char :=
  match c.toNat with
  | 0xa0 => [' ']
  | 0xa8 => [' ', '\u0308']
  | 0xaa => ['a']
  | 0xaf => [' ', '\u0304']
  | 0xb2 => ['2']
  | 0xb3 => ['3']
  | 0xb4 => [' ', '\u0301']
  | 0xb5 => ['\u03bc']
  | 0xb8 => [' ', '\u0327']
  | 0xb9 => ['1']
  | 0xba => ['o']
  | 0xbc => ['1', '\u2044', '4']
  | 0xbd => ['1', '\u2044', '2']
  | 0xbe => ['3', '\u2044', '4']
  | _ => [c]

/-- `_checknetloc`: no character may stand for one that ends the authority or divides it. -/
def checkNetloc (netloc : List Char) : Bool :=
  let kept := netloc.filter fun c => !"@:#?".toList.contains c
  let normal := kept.flatMap compatibility
  normal = kept || normal.all fun c => !"/?#@:".toList.contains c

/-- The text without what is passed over at the head of a URL and within it. -/
def cleanUrl (url : List Char) : List Char :=
  (url.dropWhile fun c => c.toNat ≤ 0x20).filter fun c => c ≠ '\t' && c ≠ '\r' && c ≠ '\n'

/-- A scheme begins with a letter. -/
def isScheme (text : List Char) : Bool :=
  text.head?.any Char.isAlpha && text.all fun c => c.isAlphanum || "+-.".toList.contains c

def afterScheme (url : List Char) : List Char :=
  if ':' ∈ url ∧ isScheme (url.takeWhile (· ≠ ':')) then (url.dropWhile (· ≠ ':')).drop 1 else url

/-- `urlsplit(url).netloc`, before it is checked. -/
def netlocOf (url : String) : List Char :=
  match afterScheme (cleanUrl url.toList) with
  | '/' :: '/' :: rest => rest.takeWhile fun c => !"/?#".toList.contains c
  | _ => []

/-- `urlsplit(url).netloc`, unless the URL is refused. -/
def netloc? (url : String) : Option String :=
  if bracketsFit (netlocOf url) && checkNetloc (netlocOf url) then some (.ofList (netlocOf url))
  else none

/-! Where the authority of a URL is found. -/

theorem compatibility_spec (c : Char) {d : Char} (mem : d ∈ compatibility c) :
    d = c ∨ d ∉ "/?#@:".toList := by
  have apart {l : List Char} (free : l.all (fun e => decide (e ∉ "/?#@:".toList)) = true)
      (mem : d ∈ l) : d ∉ "/?#@:".toList := List.all_iff_forall_prop.mp free d mem
  unfold compatibility at mem
  split at mem
  all_goals first
    | exact .inl (List.mem_singleton.mp mem)
    | exact .inr (apart (by decide) mem)

/-- Nothing divides an authority once it is normalised that does not divide it before. -/
theorem checkNetloc_eq {netloc : List Char} (noSlash : '/' ∉ netloc) :
    checkNetloc netloc = true := by
  refine Bool.or_eq_true_iff.mpr (.inr (List.all_eq_true.mpr fun d mem => ?_))
  obtain ⟨c, kept, from_c⟩ := List.mem_flatMap.mp mem
  obtain ⟨there, kept⟩ := List.mem_filter.mp kept
  rcases compatibility_spec c from_c with rfl | other
  · have notSlash : d ≠ '/' := fun slash => noSlash (slash ▸ there)
    simp_all
  · simpa using other

theorem slash_notMem_netlocOf (url : String) : '/' ∉ netlocOf url := by
  unfold netlocOf
  split
  · intro mem
    exact absurd (List.mem_takeWhile_imp mem) (by simp)
  · exact List.not_mem_nil

/-- Brackets alone make a URL one that is refused. -/
theorem netloc?_eq (url : String) :
    netloc? url = if bracketsFit (netlocOf url) then some (.ofList (netlocOf url)) else none := by
  rw [netloc?, checkNetloc_eq (slash_notMem_netlocOf url), Bool.and_true]

theorem isScheme_spec {scheme : List Char} (valid : isScheme scheme = true) :
    scheme ≠ [] ∧ ∀ c ∈ scheme, 0x20 < c.toNat ∧ c.toNat < 128 ∧ c ≠ ':' := by
  obtain ⟨first, all⟩ := Bool.and_eq_true_iff.mp valid
  refine ⟨fun empty => by simp [empty] at first, fun c mem => ?_⟩
  have kind := List.all_eq_true.mp all c mem
  have range : 0x20 < c.toNat ∧ c.toNat < 128 := by
    rcases Bool.or_eq_true_iff.mp kind with alphanumeric | mark
    · obtain ⟨low, high⟩ := bounds_of_isAlphanum alphanumeric
      exact ⟨Nat.lt_of_lt_of_le (by decide) low, Nat.lt_of_le_of_lt high (by decide)⟩
    · have marks : ∀ d ∈ "+-.".toList, 0x20 < d.toNat ∧ d.toNat < 128 :=
        List.all_iff_forall_prop.mp (by decide)
      exact marks c (List.contains_iff_mem.mp mark)
  refine ⟨range.1, range.2, fun colon => ?_⟩
  subst colon
  revert kind
  decide

/-- The authority of an origin as browsers write it is what follows the slashes. -/
theorem netlocOf_origin {scheme host : List Char} (valid : isScheme scheme = true)
    (plain : ∀ c ∈ host, 0x20 < c.toNat ∧ c ∉ "/?#".toList) :
    netlocOf (.ofList (scheme ++ ':' :: '/' :: '/' :: host)) = host := by
  obtain ⟨nonempty, chars⟩ := isScheme_spec valid
  have visible : ∀ c ∈ scheme ++ ':' :: '/' :: '/' :: host, 0x20 < c.toNat := by
    intro c mem
    simp only [List.mem_append, List.mem_cons] at mem
    rcases mem with mem | rfl | rfl | rfl | mem
    · exact (chars c mem).1
    · decide
    · decide
    · decide
    · exact (plain c mem).1
  have clean :
      cleanUrl (scheme ++ ':' :: '/' :: '/' :: host) = scheme ++ ':' :: '/' :: '/' :: host := by
    obtain ⟨c, rest, url⟩ : ∃ c rest, scheme ++ ':' :: '/' :: '/' :: host = c :: rest :=
      List.exists_cons_of_ne_nil (by simp)
    rw [url] at visible ⊢
    have first := visible c List.mem_cons_self
    rw [cleanUrl, List.dropWhile_cons_of_neg (by simpa using first), List.filter_eq_self]
    intro d mem
    have low := visible d mem
    simp only [ne_eq, Bool.and_eq_true, decide_eq_true_eq]
    refine ⟨⟨?_, ?_⟩, ?_⟩ <;> rintro rfl <;> exact absurd low (by decide)
  have passed : ∀ c ∈ scheme, decide (c ≠ ':') = true := fun c mem =>
    decide_eq_true (chars c mem).2.2
  have whole : (scheme ++ ':' :: '/' :: '/' :: host).takeWhile (· ≠ ':') = scheme := by
    rw [List.takeWhile_append_of_pos passed]
    simp
  have after : afterScheme (scheme ++ ':' :: '/' :: '/' :: host) = '/' :: '/' :: host := by
    rw [afterScheme, whole, if_pos ⟨by simp, valid⟩, List.dropWhile_append_of_pos passed]
    simp
  rw [netlocOf, String.toList_ofList, clean, after]
  refine List.takeWhile_eq_self_iff.mpr fun c mem => ?_
  simpa using (plain c mem).2

end Text
