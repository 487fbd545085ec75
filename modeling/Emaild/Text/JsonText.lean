import Mathlib.Data.Bool.AllAny
import Mathlib.Data.List.Basic
import Emaild.Text.Delimited

/-!
The text that `json.dumps` writes. It has printable ASCII characters only, and whatever
follows it, the document and what follows it can be told apart again.
-/
namespace Text

/-- A document to be written. Whole numbers are the only numbers. -/
inductive Document
  | null
  | bool (value : Bool)
  | int (value : Int)
  | text (value : String)
  | list (items : List Document)
  | object (members : List (String × Document))

namespace Document

/-- A printable character of ASCII. -/
def Printable (c : Char) : Prop := ' ' ≤ c ∧ c ≤ '~'

instance (c : Char) : Decidable (Printable c) := inferInstanceAs (Decidable (' ' ≤ c ∧ c ≤ '~'))

def hexDigit (n : Nat) : Char := if n < 10 then .ofNat (48 + n) else .ofNat (87 + n)

/-- `'\\u{0:04x}'.format(n)` -/
def unit (n : Nat) : List Char :=
  ['\\', 'u', hexDigit (n / 4096 % 16), hexDigit (n / 256 % 16), hexDigit (n / 16 % 16),
    hexDigit (n % 16)]

/-- `ESCAPE_DCT` -/
def shortEscape? (c : Char) : Option Char :=
  if c = '\\' then some '\\'
  else if c = '"' then some '"'
  else if c = '\x08' then some 'b'
  else if c = '\x0c' then some 'f'
  else if c = '\n' then some 'n'
  else if c = '\r' then some 'r'
  else if c = '\t' then some 't'
  else none

/-- `replace` of `py_encode_basestring_ascii`, for a character that needs it or not. -/
def escape (c : Char) : List Char :=
  match shortEscape? c with
  | some letter => ['\\', letter]
  | none =>
      if Printable c then [c]
      else if c.toNat < 0x10000 then unit c.toNat
      -- a surrogate pair
      else unit (0xd800 + (c.toNat - 0x10000) / 0x400) ++
        unit (0xdc00 + (c.toNat - 0x10000) % 0x400)

/-- `json.dumps(text)` -/
def quote (text : String) : List Char := '"' :: text.toList.flatMap escape ++ ['"']

/-- `str(value)` -/
def decimal : Int → List Char
  | .ofNat n => Nat.toDigits 10 n
  | .negSucc n => '-' :: Nat.toDigits 10 (n + 1)

/-- The separators of `json.dumps`. -/
structure Separators where
  item : List Char
  key : List Char
  item_comma : item.head? = some ','
  item_printable : ∀ c ∈ item, Printable c
  key_printable : ∀ c ∈ key, Printable c

section Dumps
variable (s : Separators)

mutual

/-- `json.dumps(document, separators=…)` -/
def dumps : Document → List Char
  | null => "null".toList
  | bool true => "true".toList
  | bool false => "false".toList
  | int value => decimal value
  | text value => quote value
  | list [] => ['[', ']']
  | list (item :: items) => '[' :: dumps item ++ dumpsItems items
  | object [] => ['{', '}']
  | object ((key, value) :: members) =>
      '{' :: quote key ++ s.key ++ dumps value ++ dumpsMembers members

def dumpsItems : List Document → List Char
  | [] => [']']
  | item :: items => s.item ++ dumps item ++ dumpsItems items

def dumpsMembers : List (String × Document) → List Char
  | [] => ['}']
  | (key, value) :: members => s.item ++ quote key ++ s.key ++ dumps value ++ dumpsMembers members

end

end Dumps

/-! What is written can be told apart again. -/

theorem hexDigit_inj : ∀ a < 16, ∀ b < 16, hexDigit a = hexDigit b → a = b := by decide

theorem unit_inj {a b : Nat} (ha : a < 0x10000) (hb : b < 0x10000) {rest rest' : List Char}
    (same : unit a ++ rest = unit b ++ rest') : a = b ∧ rest = rest' := by
  simp only [unit, List.cons_append, List.nil_append, List.cons.injEq, true_and] at same
  obtain ⟨h₃, h₂, h₁, h₀, after⟩ := same
  have digit (m : Nat) : m % 16 < 16 := Nat.mod_lt m (by decide)
  have e₃ := hexDigit_inj _ (digit _) _ (digit _) h₃
  have e₂ := hexDigit_inj _ (digit _) _ (digit _) h₂
  have e₁ := hexDigit_inj _ (digit _) _ (digit _) h₁
  have e₀ := hexDigit_inj _ (digit _) _ (digit _) h₀
  exact ⟨by omega, after⟩

/-- The four ways in which a character is written. -/
inductive Escaped (c : Char) : List Char → Prop
  | short {letter : Char} (found : shortEscape? c = some letter) : Escaped c ['\\', letter]
  | plain (unescaped : shortEscape? c = none) (printable : Printable c) : Escaped c [c]
  | one (range : c.toNat < 0x10000) : Escaped c (unit c.toNat)
  | pair (range : 0x10000 ≤ c.toNat) :
      Escaped c (unit (0xd800 + (c.toNat - 0x10000) / 0x400) ++
        unit (0xdc00 + (c.toNat - 0x10000) % 0x400))

theorem escaped (c : Char) : Escaped c (escape c) := by
  unfold escape
  split
  · exact .short ‹_›
  · split
    · exact .plain ‹_› ‹_›
    · split
      · exact .one ‹_›
      · exact .pair (Nat.le_of_not_lt ‹_›)

theorem shortEscape?_cases {c letter : Char} (found : shortEscape? c = some letter) :
    (c, letter) ∈ [('\\', '\\'), ('"', '"'), ('\x08', 'b'), ('\x0c', 'f'), ('\n', 'n'), ('\r', 'r'),
      ('\t', 't')] := by
  unfold shortEscape? at found
  repeat' split at found
  all_goals cases found
  all_goals
    subst_vars
    decide +kernel

/-- A letter behind a backslash stands for one character, and is no `u`. -/
theorem shortEscape?_inj {c d letter : Char} (hc : shortEscape? c = some letter)
    (hd : shortEscape? d = some letter) : c = d := by
  have pairs :
      ∀ p ∈ [('\\', '\\'), ('"', '"'), ('\x08', 'b'), ('\x0c', 'f'), ('\n', 'n'), ('\r', 'r'),
      ('\t', 't')], ∀ q ∈ [('\\', '\\'), ('"', '"'), ('\x08', 'b'), ('\x0c', 'f'), ('\n', 'n'),
      ('\r', 'r'), ('\t', 't')], p.2 = q.2 → p.1 = q.1 := by decide +kernel
  exact pairs _ (shortEscape?_cases hc) _ (shortEscape?_cases hd) rfl

theorem shortEscape?_ne_u {c letter : Char} (found : shortEscape? c = some letter) :
    letter ≠ 'u' := by
  have letters :
      ∀ p ∈ [('\\', '\\'), ('"', '"'), ('\x08', 'b'), ('\x0c', 'f'), ('\n', 'n'), ('\r', 'r'),
      ('\t', 't')], p.2 ≠ 'u' := by decide +kernel
  exact letters _ (shortEscape?_cases found)

theorem ne_backslash {c : Char} (unescaped : shortEscape? c = none) : c ≠ '\\' := by
  rintro rfl
  cases unescaped

theorem ne_quote {c : Char} (unescaped : shortEscape? c = none) : c ≠ '"' := by
  rintro rfl
  cases unescaped

/-- A character is no half of a surrogate pair. -/
theorem not_surrogate (c : Char) : c.toNat < 0xd800 ∨ 0xe000 ≤ c.toNat ∧ c.toNat < 0x110000 := by
  rcases c.valid with low | ⟨high, range⟩
  · exact .inl low
  · exact .inr ⟨high, range⟩

theorem selfDelimiting_escape : SelfDelimiting escape := by
  intro c d rest rest' same
  have behind (n : Nat) : ∃ more, unit n = '\\' :: 'u' :: more := ⟨_, rfl⟩
  have limit (n : Nat) (k : Nat) (h : n < 0x110000) (big : 0x10000 ≤ n) (below : k ≤ 0xdc00) :
      k + (n - 0x10000) % 0x400 < 0x10000 ∧ 0xd800 + (n - 0x10000) / 0x400 < 0xdc00 := by omega
  generalize ec : escape c = x at same
  generalize ed : escape d = y at same
  have hc := ec ▸ escaped c
  have hd := ed ▸ escaped d
  clear ec ed
  -- the first two characters tell which way it is
  cases hc with
  | @short l found =>
      cases hd with
      | @short l' found' =>
          simp only [List.cons_append, List.nil_append, List.cons.injEq, true_and] at same
          obtain ⟨rfl, after⟩ := same
          exact ⟨shortEscape?_inj found found', after⟩
      | plain unescaped => exact absurd (List.head_eq_of_cons_eq same).symm (ne_backslash unescaped)
      | one | pair =>
          simp only [unit, List.cons_append, List.nil_append, List.cons.injEq, true_and] at same
          exact absurd same.1 (shortEscape?_ne_u found)
  | plain unescaped =>
      cases hd with
      | short => exact absurd (List.head_eq_of_cons_eq same) (ne_backslash unescaped)
      | plain => exact ⟨List.head_eq_of_cons_eq same, List.tail_eq_of_cons_eq same⟩
      | one | pair => exact absurd (List.head_eq_of_cons_eq same) (ne_backslash unescaped)
  | one small =>
      cases hd with
      | short found =>
          simp only [unit, List.cons_append, List.nil_append, List.cons.injEq, true_and] at same
          exact absurd same.1.symm (shortEscape?_ne_u found)
      | plain unescaped => exact absurd (List.head_eq_of_cons_eq same).symm (ne_backslash unescaped)
      | one small' =>
          obtain ⟨eq, after⟩ := unit_inj small small' same
          exact ⟨Char.toNat_inj.mp eq, after⟩
      | pair big =>
          rw [List.append_assoc] at same
          have range := not_surrogate d
          have eq := (unit_inj small (by omega) same).1
          have mine := not_surrogate c
          omega
  | pair big =>
      have range := not_surrogate c
      cases hd with
      | short found =>
          simp only [unit, List.cons_append, List.nil_append, List.cons.injEq, true_and] at same
          exact absurd same.1.symm (shortEscape?_ne_u found)
      | plain unescaped => exact absurd (List.head_eq_of_cons_eq same).symm (ne_backslash unescaped)
      | one small =>
          rw [List.append_assoc] at same
          have eq := (unit_inj (by omega) small same).1
          have theirs := not_surrogate d
          omega
      | pair big' =>
          have range' := not_surrogate d
          rw [List.append_assoc, List.append_assoc] at same
          obtain ⟨high, same⟩ := unit_inj (by omega) (by omega) same
          obtain ⟨low, after⟩ := unit_inj (by omega) (by omega) same
          exact ⟨Char.toNat_inj.mp (by omega), after⟩

/-- No escape begins with a quotation mark. -/
theorem escape_head {c : Char} {rest : List Char} : escape c ≠ '"' :: rest := by
  intro same
  generalize ec : escape c = x at same
  cases ec ▸ escaped c with
  | plain unescaped => exact ne_quote unescaped (List.head_eq_of_cons_eq same)
  | short | one | pair => exact absurd (List.head_eq_of_cons_eq same) (by decide)

theorem escape_ne_nil (c : Char) : escape c ≠ [] := by
  intro same
  generalize ec : escape c = x at same
  cases ec ▸ escaped c with
  | plain | short | one | pair => cases same

theorem selfDelimiting_quote : SelfDelimiting quote := by
  have texts : SelfDelimiting fun cs : List Char => cs.flatMap escape ++ ['"'] := by
    intro cs
    induction cs with
    | nil =>
        rintro (_ | ⟨d, ds⟩) rest rest' same
        · exact ⟨rfl, List.tail_eq_of_cons_eq same⟩
        · obtain ⟨x, more, eq⟩ := List.exists_cons_of_ne_nil (escape_ne_nil d)
          simp only [List.flatMap_nil, List.flatMap_cons, List.nil_append, List.append_assoc, eq,
            List.cons_append, List.cons.injEq] at same
          obtain ⟨rfl, -⟩ := same
          exact absurd eq escape_head
    | cons c cs ih =>
        rintro (_ | ⟨d, ds⟩) rest rest' same
        · obtain ⟨x, more, eq⟩ := List.exists_cons_of_ne_nil (escape_ne_nil c)
          simp only [List.flatMap_nil, List.flatMap_cons, List.nil_append, List.append_assoc, eq,
            List.cons_append, List.cons.injEq] at same
          obtain ⟨rfl, -⟩ := same
          exact absurd eq escape_head
        · simp only [List.flatMap_cons, List.append_assoc] at same
          obtain ⟨rfl, same⟩ := selfDelimiting_escape c d _ _ same
          obtain ⟨rfl, after⟩ := ih ds rest rest' (by simpa using same)
          exact ⟨rfl, after⟩
  intro a b rest rest' same
  obtain ⟨eq, after⟩ := texts a.toList b.toList rest rest' (List.tail_eq_of_cons_eq same)
  exact ⟨String.toList_inj.mp eq, after⟩

/-- What follows a number does not go on with it. -/
def Stops (rest : List Char) : Prop := rest.head?.any Char.isDigit = false

theorem digits_inj {n m : Nat} {rest rest' : List Char} (stops : Stops rest) (stops' : Stops rest')
    (same : Nat.toDigits 10 n ++ rest = Nat.toDigits 10 m ++ rest') : n = m ∧ rest = rest' := by
  have digits (n : Nat) : ∀ c ∈ Nat.toDigits 10 n, c.isDigit = true := fun c mem =>
    Nat.isDigit_of_mem_toDigits (by decide) (by decide) mem
  have run {n : Nat} {rest : List Char} (stops : Stops rest) :
      (Nat.toDigits 10 n ++ rest).takeWhile Char.isDigit = Nat.toDigits 10 n := by
    rw [List.takeWhile_append_of_pos (digits n)]
    cases rest with
    | nil => simp
    | cons c rest => simp [Stops] at stops; simp [stops]
  have eq := congrArg (List.takeWhile Char.isDigit) same
  rw [run stops, run stops'] at eq
  rw [eq] at same
  have number := congrArg (fun ds => Nat.ofDigitChars 10 ds 0) eq
  simp only [Nat.ofDigitChars_ten_toDigits] at number
  exact ⟨number, List.append_cancel_left same⟩

theorem digits_head (n : Nat) : ∃ c more, Nat.toDigits 10 n = c :: more ∧ c.isDigit = true := by
  obtain ⟨c, more, eq⟩ := List.exists_cons_of_ne_nil (Nat.toDigits_ne_nil (n := n) (b := 10))
  exact ⟨c, more, eq, Nat.isDigit_of_mem_toDigits (n := n) (b := 10) (by decide) (by decide)
    (by rw [eq]; exact List.mem_cons_self)⟩

theorem decimal_inj {a b : Int} {rest rest' : List Char} (stops : Stops rest) (stops' : Stops rest')
    (same : decimal a ++ rest = decimal b ++ rest') : a = b ∧ rest = rest' := by
  cases a with
  | ofNat n =>
      cases b with
      | ofNat m =>
          obtain ⟨rfl, after⟩ := digits_inj stops stops' same
          exact ⟨rfl, after⟩
      | negSucc m =>
          obtain ⟨c, more, eq, digit⟩ := digits_head n
          simp only [decimal, eq, List.cons_append, List.cons.injEq] at same
          rw [same.1] at digit
          cases digit
  | negSucc n =>
      cases b with
      | ofNat m =>
          obtain ⟨c, more, eq, digit⟩ := digits_head m
          simp only [decimal, eq, List.cons_append, List.cons.injEq] at same
          rw [← same.1] at digit
          cases digit
      | negSucc m =>
          obtain ⟨eq, after⟩ := digits_inj stops stops' (List.tail_eq_of_cons_eq same)
          exact ⟨congrArg Int.negSucc (Nat.succ.inj eq), after⟩

section Dumps
variable (s : Separators)

/-- The kinds of documents. Their texts begin differently. -/
def kind : Document → Nat
  | null => 0
  | bool true => 1
  | bool false => 2
  | int _ => 3
  | text _ => 4
  | list _ => 5
  | object _ => 6

/-- What the text of a kind may begin with. -/
def opens : Nat → Char → Bool
  | 0, c => c = 'n'
  | 1, c => c = 't'
  | 2, c => c = 'f'
  | 3, c => c.isDigit || c = '-'
  | 4, c => c = '"'
  | 5, c => c = '['
  | _, c => c = '{'

theorem dumps_head (d : Document) : ∃ c more, dumps s d = c :: more ∧ opens d.kind c = true := by
  match d with
  | null | bool true | bool false | text _ | list [] | list (_ :: _) | object []
  | object (_ :: _) =>
      exact ⟨_, _, rfl, rfl⟩
  | int (.ofNat n) =>
      obtain ⟨c, more, eq, digit⟩ := digits_head n
      exact ⟨c, more, eq, by simp [kind, opens, digit]⟩
  | int (.negSucc _) => exact ⟨_, _, rfl, rfl⟩

theorem kind_le (d : Document) : d.kind ≤ 6 := by
  cases d with
  | bool value => cases value <;> decide
  | null | int | text | list | object => simp [kind]

theorem not_opens_bracket (d : Document) : opens d.kind ']' = false := by
  have kinds : ∀ k ≤ 6, opens k ']' = false := by decide
  exact kinds _ (kind_le d)

theorem opens_inj {k l : Nat} (hk : k ≤ 6) (hl : l ≤ 6) {c : Char} (one : opens k c = true)
    (other : opens l c = true) : k = l := by
  by_cases digit : c.isDigit = true
  · have number (k : Nat) (hk : k ≤ 6) (one : opens k c = true) : k = 3 := by
      match k, hk with
      | 0, _ | 1, _ | 2, _ | 4, _ | 5, _ | 6, _ =>
          rw [of_decide_eq_true one] at digit
          cases digit
      | 3, _ => rfl
    rw [number k hk one, number l hl other]
  · have mark (k : Nat) (hk : k ≤ 6) (one : opens k c = true) :
        c = ['n', 't', 'f', '-', '"', '[', '{'].getD k 'n' := by
      match k, hk with
      | 0, _ | 1, _ | 2, _ | 4, _ | 5, _ | 6, _ => exact of_decide_eq_true one
      | 3, _ => simpa [opens, digit] using one
    have marks : ∀ k ≤ 6, ∀ l ≤ 6, ['n', 't', 'f', '-', '"', '[', '{'].getD k 'n' =
        ['n', 't', 'f', '-', '"', '[', '{'].getD l 'n' → k = l := by decide
    exact marks k hk l hl ((mark k hk one).symm.trans (mark l hl other))

theorem kind_eq {a b : Document} {rest rest' : List Char}
    (same : dumps s a ++ rest = dumps s b ++ rest') : a.kind = b.kind := by
  obtain ⟨c, more, eq, one⟩ := dumps_head s a
  obtain ⟨d, more', eq', other⟩ := dumps_head s b
  rw [eq, eq'] at same
  rw [← List.head_eq_of_cons_eq same] at other
  exact opens_inj (kind_le a) (kind_le b) one other

theorem stops_dumpsItems (items : List Document) (rest : List Char) :
    Stops (dumpsItems s items ++ rest) := by
  cases items with
  | nil => rfl
  | cons item items =>
      obtain ⟨more, comma⟩ := List.head?_eq_some_iff.mp s.item_comma
      rw [dumpsItems, comma]
      rfl

theorem stops_dumpsMembers (members : List (String × Document)) (rest : List Char) :
    Stops (dumpsMembers s members ++ rest) := by
  cases members with
  | nil => rfl
  | cons member members =>
      obtain ⟨more, comma⟩ := List.head?_eq_some_iff.mp s.item_comma
      rw [dumpsMembers, comma]
      rfl

/-- Nothing that follows an item is mistaken for the end. -/
theorem item_ne_bracket {c : Char} (bracket : c = ']' ∨ c = '}') (more rest : List Char) :
    s.item ++ more ≠ c :: rest := by
  intro same
  obtain ⟨after, comma⟩ := List.head?_eq_some_iff.mp s.item_comma
  rw [comma] at same
  have := List.head_eq_of_cons_eq same
  rcases bracket with rfl | rfl <;> cases this

mutual

/-- Whatever follows, a document can be read in one way only. -/
theorem dumps_inj : ∀ (a b : Document) (rest rest' : List Char), Stops rest → Stops rest' →
    dumps s a ++ rest = dumps s b ++ rest' → a = b ∧ rest = rest'
  | null, b, rest, rest', _, _, same => by
      have kinds := kind_eq s same
      match b, kinds with
      | null, _ => exact ⟨rfl, List.append_cancel_left same⟩
  | bool true, b, rest, rest', _, _, same => by
      have kinds := kind_eq s same
      match b, kinds with
      | bool true, _ => exact ⟨rfl, List.append_cancel_left same⟩
  | bool false, b, rest, rest', _, _, same => by
      have kinds := kind_eq s same
      match b, kinds with
      | bool false, _ => exact ⟨rfl, List.append_cancel_left same⟩
  | int n, b, rest, rest', stops, stops', same => by
      have kinds := kind_eq s same
      match b, kinds with
      | int m, _ =>
          rw [dumps, dumps] at same
          obtain ⟨rfl, after⟩ := decimal_inj stops stops' same
          exact ⟨rfl, after⟩
  | text v, b, rest, rest', _, _, same => by
      have kinds := kind_eq s same
      match b, kinds with
      | text v', _ =>
          rw [dumps, dumps] at same
          obtain ⟨rfl, after⟩ := selfDelimiting_quote v v' rest rest' same
          exact ⟨rfl, after⟩
  | list [], b, rest, rest', _, _, same => by
      have kinds := kind_eq s same
      match b, kinds with
      | list [], _ => exact ⟨rfl, List.append_cancel_left same⟩
      | list (item :: items), _ =>
          obtain ⟨c, more, eq, one⟩ := dumps_head s item
          simp only [dumps, eq, List.cons_append] at same
          rw [← List.head_eq_of_cons_eq (List.tail_eq_of_cons_eq same),
            not_opens_bracket item] at one
          cases one
  | list (item :: items), b, rest, rest', stops, stops', same => by
      have kinds := kind_eq s same
      match b, kinds with
      | list [], _ =>
          obtain ⟨c, more, eq, one⟩ := dumps_head s item
          simp only [dumps, eq, List.cons_append] at same
          rw [List.head_eq_of_cons_eq (List.tail_eq_of_cons_eq same), not_opens_bracket item] at one
          cases one
      | list (item' :: items'), _ =>
          simp only [dumps, List.cons_append, List.append_assoc, List.cons.injEq, true_and] at same
          obtain ⟨rfl, tails⟩ := dumps_inj item item' _ _ (stops_dumpsItems s items rest)
            (stops_dumpsItems s items' rest') same
          obtain ⟨rfl, after⟩ := dumpsItems_inj items items' rest rest' tails
          exact ⟨rfl, after⟩
  | object [], b, rest, rest', _, _, same => by
      have kinds := kind_eq s same
      match b, kinds with
      | object [], _ => exact ⟨rfl, List.append_cancel_left same⟩
      | object ((key, value) :: members), _ =>
          simp only [dumps, quote, List.cons_append] at same
          cases List.head_eq_of_cons_eq (List.tail_eq_of_cons_eq same)
  | object ((key, value) :: members), b, rest, rest', stops, stops', same => by
      have kinds := kind_eq s same
      match b, kinds with
      | object [], _ =>
          simp only [dumps, quote, List.cons_append] at same
          cases List.head_eq_of_cons_eq (List.tail_eq_of_cons_eq same)
      | object ((key', value') :: members'), _ =>
          simp only [dumps, List.cons_append, List.append_assoc, List.cons.injEq, true_and] at same
          obtain ⟨rfl, values⟩ := selfDelimiting_quote key key' _ _ same
          obtain ⟨rfl, tails⟩ := dumps_inj value value' _ _ (stops_dumpsMembers s members rest)
            (stops_dumpsMembers s members' rest') (List.append_cancel_left values)
          obtain ⟨rfl, after⟩ := dumpsMembers_inj members members' rest rest' tails
          exact ⟨rfl, after⟩

theorem dumpsItems_inj : ∀ (as bs : List Document) (rest rest' : List Char),
    dumpsItems s as ++ rest = dumpsItems s bs ++ rest' → as = bs ∧ rest = rest'
  | [], [], rest, rest', same => ⟨rfl, List.append_cancel_left same⟩
  | [], b :: bs, rest, rest', same => by
      rw [dumpsItems, dumpsItems, List.append_assoc, List.append_assoc] at same
      exact absurd same.symm (item_ne_bracket s (.inl rfl) _ _)
  | a :: as, [], rest, rest', same => by
      rw [dumpsItems, dumpsItems, List.append_assoc, List.append_assoc] at same
      exact absurd same (item_ne_bracket s (.inl rfl) _ _)
  | a :: as, b :: bs, rest, rest', same => by
      simp only [dumpsItems, List.append_assoc] at same
      obtain ⟨rfl, tails⟩ := dumps_inj a b _ _ (stops_dumpsItems s as rest)
        (stops_dumpsItems s bs rest') (List.append_cancel_left same)
      obtain ⟨rfl, after⟩ := dumpsItems_inj as bs rest rest' tails
      exact ⟨rfl, after⟩

theorem dumpsMembers_inj : ∀ (as bs : List (String × Document)) (rest rest' : List Char),
    dumpsMembers s as ++ rest = dumpsMembers s bs ++ rest' → as = bs ∧ rest = rest'
  | [], [], rest, rest', same => ⟨rfl, List.append_cancel_left same⟩
  | [], (k, b) :: bs, rest, rest', same => by
      simp only [dumpsMembers, List.append_assoc, List.cons_append, List.nil_append] at same
      exact absurd same.symm (item_ne_bracket s (.inr rfl) _ _)
  | (k, a) :: as, [], rest, rest', same => by
      simp only [dumpsMembers, List.append_assoc, List.cons_append, List.nil_append] at same
      exact absurd same (item_ne_bracket s (.inr rfl) _ _)
  | (k, a) :: as, (l, b) :: bs, rest, rest', same => by
      simp only [dumpsMembers, List.append_assoc] at same
      obtain ⟨rfl, values⟩ := selfDelimiting_quote k l _ _ (List.append_cancel_left same)
      obtain ⟨rfl, tails⟩ := dumps_inj a b _ _ (stops_dumpsMembers s as rest)
        (stops_dumpsMembers s bs rest') (List.append_cancel_left values)
      obtain ⟨rfl, after⟩ := dumpsMembers_inj as bs rest rest' tails
      exact ⟨rfl, after⟩

end

theorem dumps_injective : Function.Injective (dumps s) := fun a b same =>
  (dumps_inj s a b [] [] rfl rfl (congrArg (· ++ []) same)).1

end Dumps

/-! It stays on one line. -/

theorem printable_hexDigit : ∀ n < 16, Printable (hexDigit n) := by decide

theorem printable_unit (n : Nat) : ∀ c ∈ unit n, Printable c := by
  have digit (m : Nat) : Printable (hexDigit (m % 16)) :=
    printable_hexDigit _ (Nat.mod_lt m (by decide))
  simp only [unit, List.mem_cons, List.not_mem_nil, or_false, forall_eq_or_imp, forall_eq]
  exact ⟨by decide, by decide, digit _, digit _, digit _, digit _⟩

theorem printable_escape (c : Char) : ∀ d ∈ escape c, Printable d := by
  have letters :
      ∀ p ∈ [('\\', '\\'), ('"', '"'), ('\x08', 'b'), ('\x0c', 'f'), ('\n', 'n'), ('\r', 'r'),
      ('\t', 't')], Printable p.2 := List.all_iff_forall_prop.mp (by decide)
  generalize ec : escape c = x
  cases ec ▸ escaped c with
  | short found =>
      simp only [List.mem_cons, List.not_mem_nil, or_false, forall_eq_or_imp, forall_eq]
      exact ⟨by decide, letters _ (shortEscape?_cases found)⟩
  | plain unescaped printable => exact List.forall_mem_singleton.mpr printable
  | one => exact printable_unit _
  | pair => exact List.forall_mem_append.mpr ⟨printable_unit _, printable_unit _⟩

theorem printable_quote (text : String) : ∀ c ∈ quote text, Printable c := by
  have mark : Printable '"' := by decide
  rw [quote, List.forall_mem_append, List.forall_mem_cons, List.forall_mem_singleton]
  refine ⟨⟨mark, fun c mem => ?_⟩, mark⟩
  obtain ⟨source, -, inner⟩ := List.mem_flatMap.mp mem
  exact printable_escape source c inner

theorem printable_digits (n : Nat) : ∀ c ∈ Nat.toDigits 10 n, Printable c := by
  intro c mem
  have digit := Nat.isDigit_of_mem_toDigits (by decide) (by decide) mem
  simp only [Char.isDigit, Bool.and_eq_true, decide_eq_true_eq] at digit
  exact ⟨Nat.le_trans (by decide : (' ').val ≤ ('0').val) digit.1,
    Nat.le_trans digit.2 (by decide : ('9').val ≤ ('~').val)⟩

section Line
variable (s : Separators)

mutual

theorem printable_dumps : ∀ (d : Document), ∀ c ∈ dumps s d, Printable c
  | null | bool true | bool false => by
      rw [dumps]
      exact List.all_iff_forall_prop.mp (by decide)
  | int (.ofNat n) => printable_digits n
  | int (.negSucc n) => by
      rw [dumps, decimal, List.forall_mem_cons]
      exact ⟨by decide, printable_digits _⟩
  | text value => printable_quote value
  | list [] | object [] => by
      rw [dumps]
      exact List.all_iff_forall_prop.mp (by decide)
  | list (item :: items) => by
      rw [dumps, List.forall_mem_append, List.forall_mem_cons]
      exact ⟨⟨by decide, printable_dumps item⟩, printable_dumpsItems items⟩
  | object ((key, value) :: members) => by
      simp only [dumps, List.forall_mem_append, List.forall_mem_cons]
      exact ⟨⟨⟨⟨by decide, printable_quote key⟩, s.key_printable⟩, printable_dumps value⟩,
        printable_dumpsMembers members⟩

theorem printable_dumpsItems : ∀ (items : List Document), ∀ c ∈ dumpsItems s items, Printable c
  | [] => by
      rw [dumpsItems]
      exact List.all_iff_forall_prop.mp (by decide)
  | item :: items => by
      simp only [dumpsItems, List.forall_mem_append]
      exact ⟨⟨s.item_printable, printable_dumps item⟩, printable_dumpsItems items⟩

theorem printable_dumpsMembers : ∀ (members : List (String × Document)),
    ∀ c ∈ dumpsMembers s members, Printable c
  | [] => by
      rw [dumpsMembers]
      exact List.all_iff_forall_prop.mp (by decide)
  | (key, value) :: members => by
      simp only [dumpsMembers, List.forall_mem_append]
      exact ⟨⟨⟨⟨s.item_printable, printable_quote key⟩, s.key_printable⟩, printable_dumps value⟩,
        printable_dumpsMembers members⟩

end

end Line

end Document
end Text
