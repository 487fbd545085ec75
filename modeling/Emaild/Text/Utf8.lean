import Mathlib.Data.List.Basic

/-!
UTF-8 as it is read leniently: one byte at a time, and what cannot be continued is replaced,
up to the byte that does not continue it.
-/
namespace Text

/-- `text.isascii()` -/
def isAscii (text : String) : Bool := text.toList.all fun c => c.toNat < 128

/-- `text.encode()` -/
def utf8 (text : String) : List UInt8 := text.toList.flatMap String.utf8EncodeChar

/-- What a character still needs: the bits so far, how many bytes follow the next one, and
the bounds of the next one. -/
structure Owed where
  bits : Nat
  more : Nat
  least : Nat := 0x80
  greatest : Nat := 0xbf
  deriving DecidableEq

/-- What stands for bytes that spell no character. -/
def replacement : Char := '\ufffd'

/-- A byte at the beginning of a character: what is written for it, and what it leaves open. -/
def firstByte (b : Nat) : List Char × Option Owed :=
  if b < 0x80 then ([.ofNat b], none)
  else if 0xc2 ≤ b ∧ b ≤ 0xdf then ([], some { bits := b - 0xc0, more := 0 })
  else if 0xe0 ≤ b ∧ b ≤ 0xef then
    -- neither a character that fits two bytes nor a surrogate
    ([], some {
      bits := b - 0xe0, more := 1
      least := if b = 0xe0 then 0xa0 else 0x80
      greatest := if b = 0xed then 0x9f else 0xbf })
  else if 0xf0 ≤ b ∧ b ≤ 0xf4 then
    -- neither a character that fits three bytes nor one past the last
    ([], some {
      bits := b - 0xf0, more := 2
      least := if b = 0xf0 then 0x90 else 0x80
      greatest := if b = 0xf4 then 0x8f else 0xbf })
  else ([replacement], none)

def nextByte : Option Owed → Nat → List Char × Option Owed
  | none, b => firstByte b
  | some o, b =>
      if o.least ≤ b ∧ b ≤ o.greatest then
        let bits := 64 * o.bits + (b - 0x80)
        match o.more with
        | 0 => ([.ofNat bits], none)
        | n + 1 => ([], some { bits, more := n })
      else (replacement :: (firstByte b).1, (firstByte b).2)

/-- `data.decode("utf-8", errors="replace")`, with a character left open. -/
def decodeReplacing : Option Owed → List UInt8 → List Char
  | none, [] => []
  | some _, [] => [replacement]
  | owed, b :: rest =>
      (nextByte owed b.toNat).1 ++ decodeReplacing (nextByte owed b.toNat).2 rest

/-! What is encoded is decoded again. -/

theorem decodeReplacing_cons (owed : Option Owed) (b : UInt8) (rest : List UInt8) :
    decodeReplacing owed (b :: rest) =
      (nextByte owed b.toNat).1 ++ decodeReplacing (nextByte owed b.toNat).2 rest := by
  cases owed <;> rfl

theorem toNat_byte {n : Nat} (h : n < 256) : (UInt8.ofNat n).toNat = n := by
  rw [UInt8.toNat_ofNat']
  exact Nat.mod_eq_of_lt h

theorem firstByte_two {b : Nat} (low : 0xc2 ≤ b) (high : b ≤ 0xdf) :
    firstByte b = ([], some { bits := b - 0xc0, more := 0 }) := by
  rw [firstByte, if_neg (by omega), if_pos ⟨low, high⟩]

theorem firstByte_three {b : Nat} (low : 0xe0 ≤ b) (high : b ≤ 0xef) :
    firstByte b = ([], some {
      bits := b - 0xe0, more := 1
      least := if b = 0xe0 then 0xa0 else 0x80
      greatest := if b = 0xed then 0x9f else 0xbf }) := by
  rw [firstByte, if_neg (by omega), if_neg (by omega), if_pos ⟨low, high⟩]

theorem firstByte_four {b : Nat} (low : 0xf0 ≤ b) (high : b ≤ 0xf4) :
    firstByte b = ([], some {
      bits := b - 0xf0, more := 2
      least := if b = 0xf0 then 0x90 else 0x80
      greatest := if b = 0xf4 then 0x8f else 0xbf }) := by
  rw [firstByte, if_neg (by omega), if_neg (by omega), if_neg (by omega), if_pos ⟨low, high⟩]

theorem decodeReplacing_first {b : Nat} {o : Owed} (opens : firstByte b = ([], some o))
    (small : b < 256) (rest : List UInt8) :
    decodeReplacing none (.ofNat b :: rest) = decodeReplacing (some o) rest := by
  rw [decodeReplacing_cons, toNat_byte small, nextByte, opens]
  rfl

/-- A byte within the bounds continues the character. -/
theorem decodeReplacing_more {b bits n least greatest : Nat} (low : least ≤ b) (high : b ≤ greatest)
    (small : b < 256) (rest : List UInt8) :
    decodeReplacing (some ⟨bits, n + 1, least, greatest⟩) (.ofNat b :: rest) =
      decodeReplacing (some { bits := 64 * bits + (b - 0x80), more := n }) rest := by
  rw [decodeReplacing_cons, toNat_byte small, nextByte, if_pos ⟨low, high⟩]
  rfl

theorem decodeReplacing_last {b bits least greatest : Nat} (low : least ≤ b) (high : b ≤ greatest)
    (small : b < 256) (rest : List UInt8) :
    decodeReplacing (some ⟨bits, 0, least, greatest⟩) (.ofNat b :: rest) =
      .ofNat (64 * bits + (b - 0x80)) :: decodeReplacing none rest := by
  rw [decodeReplacing_cons, toNat_byte small, nextByte, if_pos ⟨low, high⟩]
  rfl

theorem decodeReplacing_utf8EncodeChar (c : Char) (rest : List UInt8) :
    decodeReplacing none (String.utf8EncodeChar c ++ rest) = c :: decodeReplacing none rest := by
  obtain ⟨v, code⟩ : ∃ v, v = c.val.toNat := ⟨_, rfl⟩
  have char (n : Nat) (eq : n = v) : Char.ofNat n = c := by rw [eq, code]; exact Char.ofNat_toNat c
  have valid : v < 0xd800 ∨ 0xdfff < v ∧ v < 0x110000 := by rw [code]; exact c.valid
  unfold String.utf8EncodeChar
  simp only [← code]
  split
  case isTrue one =>
    have first : firstByte v = ([c], none) := by rw [firstByte, if_pos (by omega), char v rfl]
    rw [List.cons_append, decodeReplacing_cons, toNat_byte (by omega), nextByte, first]
    rfl
  case isFalse notOne =>
    split
    case isTrue two =>
      rw [List.cons_append, decodeReplacing_first (firstByte_two (by omega) (by omega)) (by omega),
        List.cons_append, decodeReplacing_last (by omega) (by omega) (by omega), char _ (by omega)]
      rfl
    case isFalse notTwo =>
      split
      case isTrue three =>
        rw [List.cons_append,
          decodeReplacing_first (firstByte_three (by omega) (by omega)) (by omega),
          List.cons_append,
          decodeReplacing_more (by split <;> omega) (by split <;> omega) (by omega),
          List.cons_append, decodeReplacing_last (by omega) (by omega) (by omega),
          char _ (by omega)]
        rfl
      case isFalse four =>
        rw [List.cons_append,
          decodeReplacing_first (firstByte_four (by omega) (by omega)) (by omega),
          List.cons_append,
          decodeReplacing_more (by split <;> omega) (by split <;> omega) (by omega),
          List.cons_append, decodeReplacing_more (by omega) (by omega) (by omega),
          List.cons_append, decodeReplacing_last (by omega) (by omega) (by omega),
          char _ (by omega)]
        rfl

/-- A text comes back from its bytes. -/
theorem decodeReplacing_utf8 (text : String) : decodeReplacing none (utf8 text) = text.toList := by
  rw [utf8]
  induction text.toList with
  | nil => rfl
  | cons c rest ih => rw [List.flatMap_cons, decodeReplacing_utf8EncodeChar, ih]

example :
    decodeReplacing none [0x41, 0xe1, 0x80, 0x42, 0xc3] = ['A', replacement, 'B', replacement] := by
  decide

end Text
