import Emaild.Text.Utf8

/-!
Base64 as it is read leniently: characters outside the alphabet are passed over, and the
padding that completes a group of four ends the text.
-/
namespace Text

/-- The character for six bits. -/
def sextetChar (n : Nat) : Char :=
  if n < 26 then .ofNat (n + 'A'.toNat)
  else if n < 52 then .ofNat (n - 26 + 'a'.toNat)
  else if n < 62 then .ofNat (n - 52 + '0'.toNat)
  else if n = 62 then '+'
  else '/'

/-- The six bits of a character of the alphabet. -/
def sextet? (c : Char) : Option Nat :=
  if 'A' ≤ c ∧ c ≤ 'Z' then some (c.toNat - 'A'.toNat)
  else if 'a' ≤ c ∧ c ≤ 'z' then some (c.toNat - 'a'.toNat + 26)
  else if '0' ≤ c ∧ c ≤ '9' then some (c.toNat - '0'.toNat + 52)
  else if c = '+' then some 62
  else if c = '/' then some 63
  else none

/-- `binascii.a2b_base64`, from the position in a group of four on, with the bits that are
left of the character before and the padding since. -/
def a2bBase64 (position left pads : Nat) : List Char → Option (List UInt8)
  | [] => if position = 0 then some [] else none
  | c :: rest =>
      if c = '=' then
        if 2 ≤ position then
          if 4 ≤ position + (pads + 1) then some []
          else a2bBase64 position left (pads + 1) rest
        else a2bBase64 position left pads rest
      else match sextet? c with
        | none => a2bBase64 position left pads rest
        | some n =>
            match position with
            | 0 => a2bBase64 1 n 0 rest
            | 1 => (a2bBase64 2 (n % 16) 0 rest).map (.ofNat (4 * left + n / 16) :: ·)
            | 2 => (a2bBase64 3 (n % 4) 0 rest).map (.ofNat (16 * left + n / 4) :: ·)
            | _ => (a2bBase64 0 0 0 rest).map (.ofNat (64 * left + n) :: ·)

/-- `base64.b64decode(text)`: text outside ASCII is refused like a group that is not full. -/
def b64decode (text : String) : Option (List UInt8) :=
  if isAscii text then a2bBase64 0 0 0 text.toList else none

/-- `base64.b64encode`, of three bytes at a time. -/
def b64encode : List UInt8 → List Char
  | [] => []
  | [a] => [sextetChar (a.toNat / 4), sextetChar (a.toNat % 4 * 16), '=', '=']
  | [a, b] =>
      [sextetChar (a.toNat / 4), sextetChar (a.toNat % 4 * 16 + b.toNat / 16),
        sextetChar (b.toNat % 16 * 4), '=']
  | a :: b :: c :: rest =>
      sextetChar (a.toNat / 4) :: sextetChar (a.toNat % 4 * 16 + b.toNat / 16) ::
        sextetChar (b.toNat % 16 * 4 + c.toNat / 64) :: sextetChar (c.toNat % 64) :: b64encode rest

/-! What is encoded is decoded again. -/

theorem sextetChar_spec {n : Nat} (h : n < 64) :
    sextet? (sextetChar n) = some n ∧ sextetChar n ≠ '=' ∧ (sextetChar n).toNat < 128 := by
  revert n
  decide

/-- A character of the alphabet is read by the position it stands at. -/
theorem a2bBase64_sextetChar {n : Nat} (h : n < 64) (position left pads : Nat) (rest : List Char) :
    a2bBase64 position left pads (sextetChar n :: rest) =
      match position with
      | 0 => a2bBase64 1 n 0 rest
      | 1 => (a2bBase64 2 (n % 16) 0 rest).map (.ofNat (4 * left + n / 16) :: ·)
      | 2 => (a2bBase64 3 (n % 4) 0 rest).map (.ofNat (16 * left + n / 4) :: ·)
      | _ => (a2bBase64 0 0 0 rest).map (.ofNat (64 * left + n) :: ·) := by
  obtain ⟨value, notPad, -⟩ := sextetChar_spec h
  rw [a2bBase64, if_neg notPad, value]

theorem a2bBase64_b64encode (bytes : List UInt8) :
    a2bBase64 0 0 0 (b64encode bytes) = some bytes := by
  have first (a b : UInt8) :
      4 * (a.toNat / 4) + (a.toNat % 4 * 16 + b.toNat / 16) / 16 = a.toNat := by
    have small := b.toNat_lt
    omega
  have second (a b c : UInt8) : 16 * ((a.toNat % 4 * 16 + b.toNat / 16) % 16) +
      (b.toNat % 16 * 4 + c.toNat / 64) / 4 = b.toNat := by
    have small := b.toNat_lt
    have small' := c.toNat_lt
    omega
  have third (b c : UInt8) :
      64 * ((b.toNat % 16 * 4 + c.toNat / 64) % 4) + c.toNat % 64 = c.toNat := by
    have small := c.toNat_lt
    omega
  -- a group that is not full is one whose other bytes are zero
  have first' (a : UInt8) : 4 * (a.toNat / 4) + a.toNat % 4 * 16 / 16 = a.toNat := first a 0
  have second' (a b : UInt8) : 16 * ((a.toNat % 4 * 16 + b.toNat / 16) % 16) +
      b.toNat % 16 * 4 / 4 = b.toNat := second a b 0
  induction bytes using b64encode.induct with
  | case1 => rfl
  | case2 a =>
      have small := a.toNat_lt
      simp (disch := omega) only [b64encode, a2bBase64_sextetChar, first', UInt8.ofNat_toNat]
      rfl
  | case3 a b =>
      have small := a.toNat_lt
      have small' := b.toNat_lt
      simp (disch := omega) only [b64encode, a2bBase64_sextetChar, first, second',
        UInt8.ofNat_toNat]
      rfl
  | case4 a b c rest ih =>
      have small := a.toNat_lt
      have small' := b.toNat_lt
      have small'' := c.toNat_lt
      simp (disch := omega) only [b64encode, a2bBase64_sextetChar, first, second, third,
        UInt8.ofNat_toNat, ih]
      rfl

theorem b64encode_ascii {bytes : List UInt8} : ∀ c ∈ b64encode bytes, c.toNat < 128 := by
  fun_induction b64encode bytes with
  | case1 => simp
  | case2 a =>
      have small := a.toNat_lt
      simp only [List.forall_mem_cons]
      exact ⟨(sextetChar_spec (by omega)).2.2, (sextetChar_spec (by omega)).2.2, by simp⟩
  | case3 a b =>
      have small := a.toNat_lt
      have small' := b.toNat_lt
      simp only [List.forall_mem_cons]
      exact ⟨(sextetChar_spec (by omega)).2.2, (sextetChar_spec (by omega)).2.2,
        (sextetChar_spec (by omega)).2.2, by simp⟩
  | case4 a b c rest ih =>
      have small := a.toNat_lt
      have small' := b.toNat_lt
      have small'' := c.toNat_lt
      simp only [List.forall_mem_cons]
      exact ⟨(sextetChar_spec (by omega)).2.2, (sextetChar_spec (by omega)).2.2,
        (sextetChar_spec (by omega)).2.2, (sextetChar_spec (by omega)).2.2, ih⟩

/-- Bytes come back from the text they are encoded as. -/
theorem b64decode_b64encode (bytes : List UInt8) :
    b64decode (.ofList (b64encode bytes)) = some bytes := by
  have ascii : isAscii (.ofList (b64encode bytes)) = true := by
    simpa [isAscii] using b64encode_ascii
  rw [b64decode, if_pos ascii, String.toList_ofList, a2bBase64_b64encode]

end Text
