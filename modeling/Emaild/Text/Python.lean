import Mathlib.Data.List.Infix
import Mathlib.Data.List.Sort

/-!
The string operations of the implementation language that the model uses.
-/
namespace Text

/-- `str.isspace` on one character. -/
def isSpace (c : Char) : Bool :=
  let n := c.toNat
  (0x09 ≤ n && n ≤ 0x0d) || (0x1c ≤ n && n ≤ 0x20) || n == 0x85 || n == 0xa0 || n == 0x1680 ||
    (0x2000 ≤ n && n ≤ 0x200a) || n == 0x2028 || n == 0x2029 || n == 0x202f || n == 0x205f ||
    n == 0x3000

/-- An ASCII letter or digit lies between `0` and `z`. -/
theorem bounds_of_isAlphanum {c : Char} (h : c.isAlphanum = true) :
    48 ≤ c.toNat ∧ c.toNat ≤ 122 := by
  have ranges : ((decide (c.val ≥ 'A'.val ∧ c.val ≤ 'Z'.val) ||
      (c.val ≥ 'a'.val && c.val ≤ 'z'.val)) || (c.val ≥ '0'.val && c.val ≤ '9'.val)) = true := h
  simp only [Bool.or_eq_true, Bool.and_eq_true, decide_eq_true_eq, ge_iff_le,
    UInt32.le_iff_toNat_le] at ranges
  rcases ranges with (⟨low, high⟩ | ⟨low, high⟩) | ⟨low, high⟩
  · exact ⟨Nat.le_trans (by decide) low, Nat.le_trans high (by decide)⟩
  · exact ⟨Nat.le_trans (by decide) low, Nat.le_trans high (by decide)⟩
  · exact ⟨low, Nat.le_trans high (by decide)⟩

/-- Where the decimal digits of Unicode begin, each range in ascending order. -/
def digitRanges : List Nat :=
  [0x30, 0x660, 0x6f0, 0x7c0, 0x966, 0x9e6, 0xa66, 0xae6, 0xb66, 0xbe6, 0xc66, 0xce6, 0xd66, 0xde6,
    0xe50, 0xed0, 0xf20, 0x1040, 0x1090, 0x17e0, 0x1810, 0x1946, 0x19d0, 0x1a80, 0x1a90, 0x1b50,
    0x1bb0, 0x1c40, 0x1c50, 0xa620, 0xa8d0, 0xa900, 0xa9d0, 0xa9f0, 0xaa50, 0xabf0, 0xff10, 0x104a0,
    0x10d30, 0x11066, 0x110f0, 0x11136, 0x111d0, 0x112f0, 0x11450, 0x114d0, 0x11650, 0x116c0,
    0x11730, 0x118e0, 0x11950, 0x11c50, 0x11d50, 0x11da0, 0x11f50, 0x16a60, 0x16ac0, 0x16b50,
    0x1d7ce, 0x1d7d8, 0x1d7e2, 0x1d7ec, 0x1d7f6, 0x1e140, 0x1e2f0, 0x1e4f0, 0x1e950, 0x1fbf0]

/-- The value of a character that `\d` matches. -/
def digit? (c : Char) : Option Nat :=
  (digitRanges.find? fun start => start ≤ c.toNat && c.toNat < start + 10).map fun start =>
    c.toNat - start

/-- The first and the last of each range of characters that `str.isdigit` counts in
although they are no decimal digits. -/
def otherDigitRanges : List (Nat × Nat) :=
  [(0xb2, 0xb3), (0xb9, 0xb9), (0x1369, 0x1371), (0x19da, 0x19da), (0x2070, 0x2070),
    (0x2074, 0x2079), (0x2080, 0x2089), (0x2460, 0x2468), (0x2474, 0x247c), (0x2488, 0x2490),
    (0x24ea, 0x24ea), (0x24f5, 0x24fd), (0x24ff, 0x24ff), (0x2776, 0x277e), (0x2780, 0x2788),
    (0x278a, 0x2792), (0x10a40, 0x10a43), (0x10e60, 0x10e68), (0x11052, 0x1105a),
    (0x1f100, 0x1f10a)]

def isHexDigit (c : Char) : Bool := c.isDigit || ('a' ≤ c && c ≤ 'f') || ('A' ≤ c && c ≤ 'F')

/-- `s.isdigit()` -/
def isDigit (s : String) : Bool :=
  !s.toList.isEmpty && s.toList.all fun c =>
    (digit? c).isSome || otherDigitRanges.any fun (first, last) => first ≤ c.toNat && c.toNat ≤ last

/-- `int(s)` of a text of digits: only decimal ones are read, and no more than 4300. -/
def intOfDigits? (s : String) : Option Nat :=
  if s.toList.all (fun c => (digit? c).isSome) ∧ s.toList.length ≤ 4300 then
    some (s.toList.foldl (fun n c => 10 * n + (digit? c).getD 0) 0)
  else none

/-! Numbers as they are written. -/

theorem range_of_isDigit {c : Char} (h : c.isDigit = true) : 48 ≤ c.toNat ∧ c.toNat ≤ 57 := by
  obtain ⟨low, high⟩ := Bool.and_eq_true_iff.mp h
  exact ⟨UInt32.le_iff_toNat_le.mp (of_decide_eq_true low),
    UInt32.le_iff_toNat_le.mp (of_decide_eq_true high)⟩

theorem digit?_of_isDigit {c : Char} (h : c.isDigit = true) :
    digit? c = some (c.toNat - '0'.toNat) := by
  obtain ⟨low, high⟩ := range_of_isDigit h
  have first : (digitRanges.find? fun start => start ≤ c.toNat && c.toNat < start + 10) = some 48 :=
    List.find?_cons_of_pos (by simp; omega)
  rw [digit?, first]
  rfl

theorem isDigit_repr (n : Nat) : isDigit n.repr = true := by
  rw [isDigit, Nat.toList_repr, Bool.and_eq_true_iff]
  refine ⟨by simp, List.all_eq_true.mpr fun c mem => ?_⟩
  rw [digit?_of_isDigit (Nat.isDigit_of_mem_toDigits (by decide) (by decide) mem)]
  rfl

/-- A number that is not too long to be read is read as it is written. -/
theorem intOfDigits?_repr {n : Nat} (short : (Nat.toDigits 10 n).length ≤ 4300) :
    intOfDigits? n.repr = some n := by
  have digits : ∀ c ∈ Nat.toDigits 10 n, digit? c = some (c.toNat - '0'.toNat) := fun c mem =>
    digit?_of_isDigit (Nat.isDigit_of_mem_toDigits (by decide) (by decide) mem)
  have value : (Nat.toDigits 10 n).foldl (fun n c => 10 * n + (digit? c).getD 0) 0 = n := by
    refine (List.foldl_ext _ _ 0 fun n c mem => ?_).trans
      (Nat.ofDigitChars_eq_foldl.symm.trans Nat.ofDigitChars_ten_toDigits)
    rw [digits c mem]
    rfl
  have read : (Nat.toDigits 10 n).all (fun c => (digit? c).isSome) = true :=
    List.all_eq_true.mpr fun c mem => by rw [digits c mem]; rfl
  rw [intOfDigits?, Nat.toList_repr, if_pos ⟨read, short⟩, value]

def rstrip (s : String) : String :=
  .ofList (s.toList.reverse.dropWhile isSpace).reverse

/-- `s.strip()` -/
def strip (s : String) : String :=
  rstrip (.ofList (s.toList.dropWhile isSpace))

/-- Stripping leaves a part of the text. -/
theorem strip_within (s : String) : (strip s).toList <:+: s.toList := by
  simp only [strip, rstrip, String.toList_ofList]
  refine List.IsInfix.trans ?_ (List.dropWhile_suffix isSpace).isInfix
  simpa using (List.dropWhile_suffix isSpace
    (l := (s.toList.dropWhile isSpace).reverse)).reverse.isInfix

/-- `s[:n]` -/
def clip (n : Nat) (s : String) : String := .ofList (s.toList.take n)

/-- `s.rpartition(sep)` without the separator: what stands before and after its
last occurrence. -/
def rpartition (sep : Char) (s : String) : String × String :=
  let after := (s.toList.reverse.takeWhile (· ≠ sep)).reverse
  let before := (s.toList.reverse.dropWhile (· ≠ sep)).drop 1
  (.ofList before.reverse, .ofList after)

/-- `s.partition(sep)` without the separator: what stands before and after its
first occurrence. -/
def partition (sep : Char) (s : String) : String × String :=
  (.ofList (s.toList.takeWhile (· ≠ sep)), .ofList ((s.toList.dropWhile (· ≠ sep)).drop 1))

theorem dropWhile_eq_cons {sep : Char} {l : List Char} (h : sep ∈ l) :
    l.dropWhile (· ≠ sep) = sep :: (l.dropWhile (· ≠ sep)).drop 1 := by
  induction l with
  | nil => cases h
  | cons c l ih =>
      by_cases eq : c = sep
      · simp [eq]
      · rcases List.mem_cons.mp h with rfl | rest
        · exact absurd rfl eq
        · simpa [eq] using ih rest

theorem partition_eq {sep : Char} {s : String} (h : sep ∈ s.toList) :
    s.toList = (partition sep s).1.toList ++ sep :: (partition sep s).2.toList := by
  simp only [partition, String.toList_ofList]
  rw [← dropWhile_eq_cons h, List.takeWhile_append_dropWhile]

theorem partition_append {sep : Char} {before after : String} (absent : sep ∉ before.toList) :
    partition sep (before ++ String.singleton sep ++ after) = (before, after) := by
  have passed : ∀ c ∈ before.toList, decide (c ≠ sep) = true := fun c mem =>
    decide_eq_true (ne_of_mem_of_not_mem mem absent)
  simp only [partition, String.toList_append, String.toList_singleton, List.append_assoc]
  rw [List.takeWhile_append_of_pos passed, List.dropWhile_append_of_pos passed]
  simp [String.ofList_toList]

/-- The parts determine a text in which the separator occurs. -/
theorem partition_inj {sep : Char} {s t : String} (hs : sep ∈ s.toList) (ht : sep ∈ t.toList)
    (h : partition sep s = partition sep t) : s = t := by
  refine String.ext ?_
  rw [partition_eq hs, partition_eq ht, h]

/-- `s.split(sep, 1)[1]`, when the separator occurs. -/
def afterFirst (sep : Char) (s : String) : Option String :=
  if sep ∈ s.toList then some (.ofList ((s.toList.dropWhile (· ≠ sep)).drop 1)) else none

def startsWith (pre s : String) : Bool := pre.toList.isPrefixOf s.toList

def endsWith (suffix s : String) : Bool := suffix.toList.isSuffixOf s.toList

/-- `sub in s` -/
def contains (sub s : String) : Bool := s.toList.tails.any fun rest => sub.toList.isPrefixOf rest

theorem contains_iff {sub s : String} : contains sub s = true ↔ sub.toList <:+: s.toList := by
  rw [contains, List.any_eq_true, List.infix_iff_prefix_suffix]
  constructor
  · rintro ⟨rest, mem, found⟩
    exact ⟨rest, List.isPrefixOf_iff_prefix.mp found, (List.mem_tails ..).mp mem⟩
  · rintro ⟨rest, found, tail⟩
    exact ⟨rest, (List.mem_tails ..).mpr tail, List.isPrefixOf_iff_prefix.mpr found⟩

/-- `s.partition(sep)` without the separator, for a separator of several characters. -/
def partitionOn (sep : List Char) : List Char → List Char × List Char
  | [] => ([], [])
  | c :: text =>
      if sep <+: c :: text then ([], (c :: text).drop sep.length)
      else (c :: (partitionOn sep text).1, (partitionOn sep text).2)

/-- The separator does not begin within what stands before it. -/
theorem partitionOn_append {sep before after : List Char} (nonempty : sep ≠ [])
    (absent : ¬ sep <:+: before ++ sep.dropLast) :
    partitionOn sep (before ++ sep ++ after) = (before, after) := by
  induction before with
  | nil =>
      obtain ⟨c, rest, rfl⟩ := List.exists_cons_of_ne_nil nonempty
      rw [List.nil_append, List.cons_append, partitionOn, if_pos, ← List.cons_append,
        List.drop_left]
      exact List.prefix_append (c :: rest) after
  | cons c before ih =>
      have later : ¬ sep <:+: before ++ sep.dropLast := fun inner =>
        absent (inner.trans (List.suffix_cons c _).isInfix)
      have here : ¬ sep <+: c :: (before ++ sep ++ after) := by
        intro begins
        have front : c :: before ++ sep.dropLast <+: c :: (before ++ sep ++ after) := by
          rw [← List.cons_append, ← List.cons_append, List.append_assoc]
          exact (List.prefix_append_right_inj _).mpr
            ((List.dropLast_prefix sep).trans (List.prefix_append sep after))
        refine absent (List.prefix_of_prefix_length_le begins front ?_).isInfix
        rw [List.length_append, List.length_cons, List.length_dropLast]
        omega
      rw [List.cons_append, List.cons_append, partitionOn, if_neg here, ih later]

theorem rpartition_append {sep : Char} {before after : String} (absent : sep ∉ after.toList) :
    rpartition sep (before ++ String.singleton sep ++ after) = (before, after) := by
  have passed : ∀ c ∈ after.toList.reverse, decide (c ≠ sep) = true := fun c mem =>
    decide_eq_true (ne_of_mem_of_not_mem (List.mem_reverse.mp mem) absent)
  simp only [rpartition, String.toList_append, String.toList_singleton, List.reverse_append,
    List.reverse_singleton]
  rw [List.takeWhile_append_of_pos passed, List.dropWhile_append_of_pos passed]
  simp [String.ofList_toList]

/-- `s.rstrip(c)`, for one character. -/
def rstripChar (c : Char) (s : String) : String :=
  .ofList (s.toList.reverse.dropWhile (· = c)).reverse

/-- `s.strip(c)`, for one character. -/
def stripChar (c : Char) (s : String) : String :=
  rstripChar c (.ofList (s.toList.dropWhile (· = c)))

/-- `s.replace(ab, "")`, for two characters. -/
def removePair (a b : Char) : List Char → List Char
  | c :: d :: rest =>
      if c = a ∧ d = b then removePair a b rest else c :: removePair a b (d :: rest)
  | rest => rest

/-- `s.split(None, 1)[1]`, if the text has a second word. -/
def afterWord (s : String) : Option String :=
  let afterFirst := (s.toList.dropWhile isSpace).dropWhile fun c => !isSpace c
  match afterFirst.dropWhile isSpace with
  | [] => none
  | rest => some (.ofList rest)

/-- The character of a leading byte's bits and its continuation bytes, which may not spell
one below the least that needs as many. -/
def utf8Char (least bits : Nat) (more : List UInt8) : Option Char :=
  if more.all fun b => 0x80 ≤ b && b < 0xc0 then
    let n := more.foldl (fun n b => n * 64 + (b.toNat - 0x80)) bits
    if least ≤ n ∧ n.isValidChar then some (.ofNat n) else none
  else none

/-- `bytes.decode()` -/
def decodeUtf8 : List UInt8 → Option (List Char)
  | [] => some []
  | a :: rest =>
      if a < 0x80 then (decodeUtf8 rest).map (.ofNat a.toNat :: ·)
      else if a < 0xc0 then none
      else match rest with
        | [] => none
        | b :: rest =>
            if a < 0xe0 then do
              return (← utf8Char 0x80 (a.toNat - 0xc0) [b]) :: (← decodeUtf8 rest)
            else match rest with
              | [] => none
              | c :: rest =>
                  if a < 0xf0 then do
                    return (← utf8Char 0x800 (a.toNat - 0xe0) [b, c]) :: (← decodeUtf8 rest)
                  else match rest with
                    | [] => none
                    | d :: rest =>
                        if a < 0xf8 then do
                          return (← utf8Char 0x10000 (a.toNat - 0xf0) [b, c, d]) ::
                            (← decodeUtf8 rest)
                        else none

example : decodeUtf8 [0x76, 0x3d, 0xc3, 0xa9, 0xe2, 0x82, 0xac, 0xf0, 0x9f, 0x93, 0xa7] =
    some ['v', '=', 'é', '€', '📧'] := by decide

/-- `value or ""` -/
def orEmpty : Option String → String
  | some s => s
  | none => ""

/-- `", ".join(sorted(values))`: strings are ordered by code point. -/
def joinSorted (values : List String) : String :=
  ", ".intercalate (values.insertionSort (· ≤ ·))

/-- The proleptic Gregorian date of a day, counted from 1970-01-01. -/
def civil (day : Int) : Int × Int × Int :=
  -- years begin in March here, and repeat after 400 of them
  let era := (day + 719468) / 146097
  let dayOfEra := (day + 719468) % 146097
  let year := (dayOfEra - dayOfEra / 1460 + dayOfEra / 36524 - dayOfEra / 146096) / 365
  let dayOfYear := dayOfEra - (365 * year + year / 4 - year / 100)
  let month := (5 * dayOfYear + 2) / 153
  (year + era * 400 + (if month < 10 then 0 else 1), if month < 10 then month + 3 else month - 9,
    dayOfYear - (153 * month + 2) / 5 + 1)

def zeroPad (width : Nat) (n : Int) : String :=
  "".pushn '0' (width - (toString n).length) ++ toString n

/-- `f"{t:%Y-%m-%d %H:%M}"`, of microseconds since the epoch. -/
def minuteStamp (t : Int) : String :=
  let (year, month, day) := civil (t / 86400000000)
  let minute := t % 86400000000 / 60000000
  s!"{zeroPad 4 year}-{zeroPad 2 month}-{zeroPad 2 day} " ++
    s!"{zeroPad 2 (minute / 60)}:{zeroPad 2 (minute % 60)}"

example : minuteStamp 1709210096000000 = "2024-02-29 12:34" := by decide +kernel

/-- `t.isoformat()` of a time in UTC. -/
def isoFormat (t : Int) : String :=
  let (year, month, day) := civil (t / 86400000000)
  let second := t % 86400000000 / 1000000
  let fraction := t % 1000000
  s!"{zeroPad 4 year}-{zeroPad 2 month}-{zeroPad 2 day}T" ++
    s!"{zeroPad 2 (second / 3600)}:{zeroPad 2 (second / 60 % 60)}:{zeroPad 2 (second % 60)}" ++
    (if fraction = 0 then "" else "." ++ zeroPad 6 fraction) ++ "+00:00"

example : isoFormat 1709210096000250 = "2024-02-29T12:34:56.000250+00:00" := by decide +kernel

end Text
