import Mathlib.Data.List.Infix
import Emaild.Text.Fields
import Emaild.Text.Python
import Emaild.Text.Utf8

/-!
Forms as `application/x-www-form-urlencoded`: what a browser sends for a list of fields, and
what `urllib.parse.parse_qsl` makes of a text.
-/
namespace Text
namespace FormData

/-! The text of a form. -/

def upperHex (n : Nat) : Char := if n < 10 then .ofNat (48 + n) else .ofNat (55 + n)

/-- A byte that stands for itself. -/
def isPlain (b : UInt8) : Bool :=
  let c := Char.ofNat b.toNat
  b.toNat < 128 && (c.isAlphanum || c = '*' || c = '-' || c = '.' || c = '_')

def encodeByte (b : UInt8) : List Char :=
  if b = 0x20 then ['+']
  else if isPlain b then [.ofNat b.toNat]
  else ['%', upperHex (b.toNat / 16), upperHex (b.toNat % 16)]

def encode (text : String) : List Char := (utf8 text).flatMap encodeByte

/-- The body that is sent for the fields of a form. -/
def body (entries : List (String × String)) : List Char :=
  ['&'].intercalate (entries.map fun e => encode e.1 ++ '=' :: encode e.2)

/-! What is read. -/

def hexValue (c : Char) : Nat :=
  if c.isDigit then c.toNat - 48 else if 'a' ≤ c then c.toNat - 87 else c.toNat - 55

/-- `unquote_to_bytes`, of ASCII characters. -/
def unquoteToBytes : List Char → List UInt8
  | '%' :: high :: low :: rest =>
      if isHexDigit high && isHexDigit low then
        .ofNat (16 * hexValue high + hexValue low) :: unquoteToBytes rest
      else 0x25 :: unquoteToBytes (high :: low :: rest)
  | c :: rest => .ofNat c.toNat :: unquoteToBytes rest
  | [] => []

/-- `unquote`: each run of ASCII characters is decoded on its own. -/
def unquoteFrom (run : List Char) : List Char → List Char
  | [] => decodeReplacing none (unquoteToBytes run)
  | c :: rest =>
      if c.toNat < 128 then unquoteFrom (run ++ [c]) rest
      else decodeReplacing none (unquoteToBytes run) ++ c :: unquoteFrom [] rest

def plusToSpace (c : Char) : Char := if c = '+' then ' ' else c

/-- A name or a value. -/
def unquote (text : List Char) : String := .ofList (unquoteFrom [] (text.map plusToSpace))

/-- `parse_qsl(text, keep_blank_values=True)` -/
def parseQsl (text : List Char) : List (String × String) :=
  ((text.splitOn '&').filter fun pair => !pair.isEmpty).map fun pair =>
    (unquote (pair.takeWhile (· ≠ '=')), unquote ((pair.dropWhile (· ≠ '=')).drop 1))

/-! One byte, and then a text. -/

section Bytes

theorem hexDigits : ∀ n < 16, isHexDigit (upperHex n) = true ∧ hexValue (upperHex n) = n ∧
    plusToSpace (upperHex n) = upperHex n ∧ (upperHex n).toNat < 128 ∧ upperHex n ≠ '&' ∧
    upperHex n ≠ '=' := by decide

theorem isPlain_cases : ∀ n < 128, isPlain (.ofNat n) = true →
    plusToSpace (.ofNat n) = .ofNat n ∧ Char.ofNat n ≠ '%' ∧ Char.ofNat n ≠ '&' ∧
      Char.ofNat n ≠ '=' := by decide +kernel

theorem plain_of_isPlain {b : UInt8} (plain : isPlain b = true) :
    plusToSpace (.ofNat b.toNat) = .ofNat b.toNat ∧ Char.ofNat b.toNat ≠ '%' ∧
      Char.ofNat b.toNat ≠ '&' ∧ Char.ofNat b.toNat ≠ '=' ∧
        (Char.ofNat b.toNat).toNat = b.toNat := by
  have small : b.toNat < 128 := by
    rw [isPlain, Bool.and_eq_true, decide_eq_true_eq] at plain
    exact plain.1
  have codes : ∀ n < 128, (Char.ofNat n).toNat = n := by decide +kernel
  have ranges := isPlain_cases b.toNat small (by rw [UInt8.ofNat_toNat]; exact plain)
  exact ⟨ranges.1, ranges.2.1, ranges.2.2.1, ranges.2.2.2, codes _ small⟩

/-- What is read where a byte has been written. -/
theorem unquoteToBytes_encodeByte (b : UInt8) (rest : List Char) :
    unquoteToBytes ((encodeByte b).map plusToSpace ++ rest) = b :: unquoteToBytes rest := by
  have other {c : Char} (plain : c ≠ '%') (rest : List Char) :
      unquoteToBytes (c :: rest) = .ofNat c.toNat :: unquoteToBytes rest := by
    rw [unquoteToBytes]
    exact fun _ _ _ percent => absurd percent plain
  unfold encodeByte
  split
  · rename_i space
    subst space
    exact other (by decide) rest
  split
  · rename_i plain
    obtain ⟨same, percent, -, -, code⟩ := plain_of_isPlain plain
    rw [List.map_singleton, same, List.singleton_append, other percent, code, UInt8.ofNat_toNat]
  · obtain ⟨isHigh, high, keptHigh, -⟩ := hexDigits (b.toNat / 16) (by have := b.toNat_lt; omega)
    obtain ⟨isLow, low, keptLow, -⟩ := hexDigits (b.toNat % 16) (Nat.mod_lt _ (by decide))
    have percent : plusToSpace '%' = '%' := by decide
    simp only [List.map_cons, List.map_nil, keptHigh, keptLow, percent, List.cons_append,
      List.nil_append, unquoteToBytes, isHigh, isLow, Bool.and_self, if_true, high, low]
    rw [Nat.div_add_mod, UInt8.ofNat_toNat]

theorem unquoteToBytes_flatMap (bytes : List UInt8) :
    unquoteToBytes ((bytes.flatMap encodeByte).map plusToSpace) = bytes := by
  induction bytes with
  | nil => rfl
  | cons b bytes ih =>
      rw [List.flatMap_cons, List.map_append, unquoteToBytes_encodeByte, ih]

/-- Nothing that is written divides fields or is outside of ASCII. -/
theorem mem_encodeByte {b : UInt8} {c : Char} (mem : c ∈ encodeByte b) :
    c.toNat < 128 ∧ c ≠ '&' ∧ c ≠ '=' := by
  unfold encodeByte at mem
  split at mem
  · obtain rfl := List.mem_singleton.mp mem
    decide
  split at mem
  · rename_i plain
    obtain ⟨-, -, amp, eq, code⟩ := plain_of_isPlain plain
    obtain rfl := List.mem_singleton.mp mem
    rw [isPlain, Bool.and_eq_true, decide_eq_true_eq] at plain
    exact ⟨by rw [code]; exact plain.1, amp, eq⟩
  · have high := hexDigits (b.toNat / 16) (by have := b.toNat_lt; omega)
    have low := hexDigits (b.toNat % 16) (Nat.mod_lt _ (by decide))
    rcases List.mem_cons.mp mem with rfl | mem
    · decide
    rcases List.mem_cons.mp mem with rfl | mem
    · exact ⟨high.2.2.2.1, high.2.2.2.2.1, high.2.2.2.2.2⟩
    · obtain rfl := List.mem_singleton.mp mem
      exact ⟨low.2.2.2.1, low.2.2.2.2.1, low.2.2.2.2.2⟩

theorem mem_encode {text : String} {c : Char} (mem : c ∈ encode text) :
    c.toNat < 128 ∧ c ≠ '&' ∧ c ≠ '=' := by
  obtain ⟨b, -, inner⟩ := List.mem_flatMap.mp mem
  exact mem_encodeByte inner

theorem unquoteFrom_ascii {text : List Char} (ascii : ∀ c ∈ text, c.toNat < 128) (run : List Char) :
    unquoteFrom run text = decodeReplacing none (unquoteToBytes (run ++ text)) := by
  induction text generalizing run with
  | nil => rw [unquoteFrom, List.append_nil]
  | cons c text ih =>
      obtain ⟨here, later⟩ := List.forall_mem_cons.mp ascii
      rw [unquoteFrom, if_pos here, ih later, List.append_assoc, List.singleton_append]

theorem unquote_encode (text : String) : unquote (encode text) = text := by
  have ascii : ∀ c ∈ (encode text).map plusToSpace, c.toNat < 128 := by
    intro c mem
    obtain ⟨source, among, rfl⟩ := List.mem_map.mp mem
    unfold plusToSpace
    split
    · decide
    · exact (mem_encode among).1
  rw [unquote, unquoteFrom_ascii ascii, List.nil_append, encode, unquoteToBytes_flatMap,
    decodeReplacing_utf8, String.ofList_toList]

end Bytes

/-! The fields. -/

/-- What is read of a form is what was filled in. -/
theorem parseQsl_body (entries : List (String × String)) : parseQsl (body entries) = entries := by
  cases entries with
  | nil => rfl
  | cons first entries =>
      generalize whole : first :: entries = all
      have pairs : (body all).splitOn '&' = all.map fun e => encode e.1 ++ '=' :: encode e.2 := by
        refine List.splitOn_intercalate '&' (fun pair mem amp => ?_) (by rw [← whole]; simp)
        obtain ⟨e, -, rfl⟩ := List.mem_map.mp mem
        rcases List.mem_append.mp amp with inner | inner
        · exact (mem_encode inner).2.1 rfl
        rcases List.mem_cons.mp inner with same | inner
        · cases same
        · exact (mem_encode inner).2.1 rfl
      have filled : (all.map fun e => encode e.1 ++ '=' :: encode e.2).filter
          (fun pair => !pair.isEmpty) = all.map fun e => encode e.1 ++ '=' :: encode e.2 := by
        refine List.filter_eq_self.mpr fun pair mem => ?_
        obtain ⟨e, -, rfl⟩ := List.mem_map.mp mem
        simp
      rw [parseQsl, pairs, filled, List.map_map]
      conv_rhs => rw [← List.map_id all]
      refine List.map_congr_left fun e _ => ?_
      have name : ∀ c ∈ encode e.1, (decide (c ≠ '=')) = true := fun c mem =>
        decide_eq_true (mem_encode mem).2.2
      have before : (encode e.1 ++ '=' :: encode e.2).takeWhile (· ≠ '=') = encode e.1 := by
        rw [List.takeWhile_append_of_pos name]
        simp
      have behind : (encode e.1 ++ '=' :: encode e.2).dropWhile (· ≠ '=') = '=' :: encode e.2 := by
        rw [List.dropWhile_append_of_pos name]
        simp
      change (_, _) = e
      rw [before, behind, List.drop_one, List.tail_cons, unquote_encode, unquote_encode]

end FormData
end Text
