import Mathlib.Data.List.TakeWhile
import Emaild.Errors
import Emaild.Smtp
import Emaild.Text.Fields

/-!
The limits that a server states in its answer to EHLO. They are parameters of lines of their
own, but what is read is the last value that follows the name of a limit anywhere in the
answer, and the first number that follows `SIZE` at the beginning of a line.
-/
namespace Emaild
open Text

/-! What `from_ehlo` looks at. -/

/-- The value behind a keyword at the head of a text. -/
def said? (keyword : String) (text : List Char) : Option Nat :=
  (keywordNumber keyword text).map Prod.fst

/-- The last place of a text where a value follows the keyword has this one. -/
def LastSaid (keyword : String) (text : List Char) (n : Nat) : Prop :=
  ∃ tail, tail <:+ text ∧ said? keyword tail = some n ∧
    ∀ later, later <:+ tail → later ≠ tail → said? keyword later = none

/-- A line begins here: behind a line break, or with the text itself. -/
def LineStart (atLineStart : Bool) (text tail : List Char) : Prop :=
  (atLineStart = true ∧ tail = text) ∨ ∃ before, text = before ++ '\n' :: tail

/-- The first line that begins with a size begins with this one. -/
def FirstSize (atLineStart : Bool) (text : List Char) (n : Nat) : Prop :=
  ∃ tail, LineStart atLineStart text tail ∧ sizeHere tail = some n ∧
    ∀ earlier, LineStart atLineStart text earlier → tail <:+ earlier → earlier ≠ tail →
      sizeHere earlier = none

/-- The digits at the head of a text. -/
def leadingDigits (text : List Char) : List Char := text.takeWhile fun c => (digit? c).isSome

/-- A limit whose number has more digits than `int` converts. -/
def limitOverlong (text : List Char) : Bool :=
  text.tails.any fun tail => ["MAILMAX=", "RCPTMAX="].any fun keyword =>
    ((Regex.word keyword).rest tail).any fun rest => 4300 < (leadingDigits rest).length

/-- The size that is found is one with more digits than `int` converts. -/
def sizeOverlong (atLineStart : Bool) : List Char → Bool
  | [] => false
  | c :: text =>
      match if atLineStart then sizeHere (c :: text) else none with
      | some _ => ((Regex.word "SIZE").rest (c :: text)).any fun rest =>
          4300 < (leadingDigits (rest.dropWhile isSpace)).length
      | none => sizeOverlong (c = '\n') text

/-- `ServerLimits.from_ehlo`, with the exception that `int` raises. -/
def ServerLimits.readEhlo (banner : String) (fallback : ServerLimits) :
    Except Raised ServerLimits :=
  if limitOverlong banner.toList || sizeOverlong true banner.toList then
    .error (.builtin "ValueError")
  else .ok (.fromEhlo banner fallback)

/-! What the lines state. -/

/-- The lines behind the greeting. -/
def keywordLines (banner : String) : List (List Char) := (banner.toList.splitOn '\n').tail

/-- The first line behind the greeting whose first word is the keyword, case ignored. -/
def ownLine? (keyword banner : String) : Option (List Char) :=
  (keywordLines banner).find? fun line =>
    (line.takeWhile fun c => !isSpace c).map Regex.foldCase = Regex.folded keyword

/-- The words behind the first one. -/
def lineParams (line : List Char) : List (List Char) :=
  ((line.dropWhile fun c => !isSpace c).splitOnP isSpace).filter fun w => !w.isEmpty

/-- The parameter of the `SIZE` line, if it is a positive number. -/
def ownSize (banner : String) : Option Nat := do
  let param ← (lineParams (← ownLine? "SIZE" banner)).head?
  let (n, rest) ← leadingNumber param
  if rest = [] ∧ 0 < n then some n else none

/-- The parameter of the `LIMITS` line that gives the limit a positive number. -/
def ownLimit (keyword banner : String) : Option Nat := do
  (lineParams (← ownLine? "LIMITS" banner)).findSome? fun param => do
    let (n, rest) ← keywordNumber keyword param
    if rest = [] ∧ 0 < n then some n else none

/-- What every line states of its own limit. -/
def statedLimits (banner : String) (fallback : ServerLimits) : ServerLimits where
  maxMessagesPerConnection := (ownLimit "MAILMAX=" banner).getD fallback.maxMessagesPerConnection
  maxRecipients := (ownLimit "RCPTMAX=" banner).getD fallback.maxRecipients
  maxSizeBytes := (ownSize banner).getD fallback.maxSizeBytes

/-- No number is too long, and the places that are read have the values of the lines that state
them: the last place of a limit, where zero stands for none, and the first of a size. -/
structure Undistracted (banner : String) : Prop where
  readable : limitOverlong banner.toList = false ∧ sizeOverlong true banner.toList = false
  mailmax : ∀ n, LastSaid "MAILMAX=" banner.toList n →
    ownLimit "MAILMAX=" banner = if n = 0 then none else some n
  rcptmax : ∀ n, LastSaid "RCPTMAX=" banner.toList n →
    ownLimit "RCPTMAX=" banner = if n = 0 then none else some n
  size : ∀ n, FirstSize true banner.toList n → ownSize banner = some n

/-! The last place of a limit. -/

theorem said?_eq (keyword : String) (text : List Char) :
    said? keyword text =
      if Regex.folded keyword <+: text.map Regex.foldCase then
        (leadingNumber (text.drop keyword.toList.length)).map Prod.fst
      else none := by
  rw [said?, keywordNumber, Regex.rest_word]
  split <;> rfl

theorem said?_nil (keyword : String) : said? keyword [] = none := by
  rw [said?_eq, List.drop_nil]
  split <;> rfl

/-- The value at the last place of a limit. -/
def lastSaid? (keyword : String) : List Char → Option Nat
  | [] => none
  | c :: text => (lastSaid? keyword text).or (said? keyword (c :: text))

theorem lastSaid?_eq_none {keyword : String} {text : List Char} :
    lastSaid? keyword text = none ↔ ∀ tail, tail <:+ text → said? keyword tail = none := by
  induction text with
  | nil => simp [lastSaid?, said?_nil]
  | cons c text ih =>
      simp only [lastSaid?, Option.or_eq_none_iff, ih, List.suffix_cons_iff]
      constructor
      · rintro ⟨behind, here⟩ tail (rfl | inner)
        · exact here
        · exact behind tail inner
      · exact fun unsaid => ⟨fun tail inner => unsaid tail (.inr inner), unsaid _ (.inl rfl)⟩

theorem lastSaid?_eq_some {keyword : String} {text : List Char} {n : Nat} :
    lastSaid? keyword text = some n ↔ LastSaid keyword text n := by
  induction text with
  | nil =>
      refine ⟨fun h => by simp [lastSaid?] at h, fun ⟨tail, suffix, said, _⟩ => ?_⟩
      rw [List.suffix_nil.mp suffix, said?_nil] at said
      cases said
  | cons c text ih =>
      simp only [lastSaid?, Option.or_eq_some_iff, ih, lastSaid?_eq_none]
      constructor
      · rintro (⟨tail, suffix, said, last⟩ | ⟨behind, here⟩)
        · exact ⟨tail, suffix.trans (List.suffix_cons c text), said, last⟩
        · refine ⟨c :: text, List.suffix_refl _, here, fun later inner other => ?_⟩
          exact behind later ((List.suffix_cons_iff.mp inner).resolve_left other)
      · rintro ⟨tail, suffix, said, last⟩
        rcases List.suffix_cons_iff.mp suffix with rfl | inner
        · refine .inr
            ⟨fun later inner => last later (inner.trans (List.suffix_cons c text)) ?_, said⟩
          rintro rfl
          exact absurd inner.length_le (by simp)
        · exact .inl ⟨tail, inner, said, last⟩

/-- Nothing is said at the places of a part of the text, so its end decides. -/
theorem lastSaid?_append {keyword : String} {front text : List Char}
    (unsaid : ∀ tail, tail <:+ front → tail ≠ [] → said? keyword (tail ++ text) = none) :
    lastSaid? keyword (front ++ text) = lastSaid? keyword text := by
  induction front with
  | nil => rfl
  | cons c front ih =>
      have here := unsaid (c :: front) (List.suffix_refl _) (List.cons_ne_nil _ _)
      rw [List.cons_append] at here ⊢
      rw [lastSaid?, here, Option.or_none,
        ih fun tail inner => unsaid tail (inner.trans (List.suffix_cons c front))]

/-! Names of limits and numbers do not overlap with names of limits. -/

theorem digit?_range {c : Char} (h : (digit? c).isSome = true) :
    c.toNat ≤ 0x39 ∨ 0x660 ≤ c.toNat := by
  have starts : ∀ start ∈ digitRanges, start = 0x30 ∨ 0x660 ≤ start := by decide
  rw [digit?, Option.isSome_map, List.find?_isSome] at h
  obtain ⟨start, mem, inside⟩ := h
  simp only [Bool.and_eq_true, decide_eq_true_eq] at inside
  rcases starts start mem with rfl | high <;> omega

theorem foldCase_digit {c : Char} (h : (digit? c).isSome = true) :
    Regex.foldCase c ≠ 'm' ∧ Regex.foldCase c ≠ 'r' := by
  have range := digit?_range h
  have lower : c.toLower = c := by
    unfold Char.toLower
    split
    · rename_i capital
      obtain ⟨low, high⟩ := capital
      have low' : 0x41 ≤ c.toNat := UInt32.le_iff_toNat_le.mp low
      have high' : c.toNat ≤ 0x5a := UInt32.le_iff_toNat_le.mp high
      omega
    · rfl
  have other (d : Char) (between : 0x39 < d.toNat ∧ d.toNat < 0x660) : c ≠ d := by
    rintro rfl
    omega
  unfold Regex.foldCase
  rw [lower]
  split
  · decide
  split
  · decide
  split
  · decide
  · exact ⟨other 'm' (by decide), other 'r' (by decide)⟩

/-- The names of the limits that are looked for. -/
def limitNames : List String := ["MAILMAX=", "RCPTMAX="]

/-- A name of a limit cannot begin within another one. -/
theorem limitNames_apart {name other : String} (mem : name ∈ limitNames) (mem' : other ∈ limitNames)
    {i : Nat} (inside : 0 < i ∧ i < 8) (rest : List Char) :
    ¬ Regex.folded other <+: (Regex.folded name).drop i ++ rest := by
  have apart : ∀ name ∈ limitNames, ∀ other ∈ limitNames, ∀ i < 8, 0 < i →
      (Regex.folded other).take (8 - i) ≠ (Regex.folded name).drop i := by decide
  have lengths : ∀ name ∈ limitNames, (Regex.folded name).length = 8 := by decide
  intro spelled
  refine apart name mem other mem' i inside.2 inside.1 ?_
  have whole := List.prefix_iff_eq_take.mp spelled
  rw [whole, List.take_take, lengths other mem', Nat.min_eq_left (Nat.sub_le 8 i)]
  rw [List.take_left' (by simp [lengths name mem])]

theorem said?_of_unspelled {keyword : String} {text : List Char}
    (unspelled : ¬ Regex.folded keyword <+: text.map Regex.foldCase) :
    said? keyword text = none := by
  rw [said?_eq, if_neg unspelled]

/-- Behind the beginning of a limit and up to the end of its number no limit begins. -/
theorem said?_within {name other : String} (mem : name ∈ limitNames) (mem' : other ∈ limitNames)
    {head digits rest : List Char} (spelled : head.map Regex.foldCase = Regex.folded name)
    (numeric : ∀ c ∈ digits, (digit? c).isSome = true) {tail : List Char}
    (inner : tail <:+ (head ++ digits).tail) (nonempty : tail ≠ []) :
    said? other (tail ++ rest) = none := by
  refine said?_of_unspelled fun found => ?_
  have eight : head.length = 8 := by
    have lengths : ∀ name ∈ limitNames, (Regex.folded name).length = 8 := by decide
    rw [← lengths name mem, ← spelled, List.length_map]
  obtain ⟨k, whole⟩ : ∃ k, tail = (head ++ digits).drop (k + 1) := by
    rw [List.suffix_iff_eq_drop] at inner
    exact ⟨_, by rw [inner, ← List.drop_one, List.drop_drop, Nat.add_comm 1]⟩
  by_cases inside : k + 1 < 8
  · rw [whole, List.drop_append_of_le_length (by omega), List.append_assoc, List.map_append,
      List.map_drop, spelled] at found
    exact limitNames_apart mem mem' ⟨by omega, inside⟩ _ found
  · -- the place is one of the number
    rw [List.drop_append, List.drop_of_length_le (by omega), List.nil_append] at whole
    obtain ⟨d, more, eq⟩ := List.exists_cons_of_ne_nil nonempty
    have digit := numeric d (List.mem_of_mem_drop (whole ▸ eq ▸ List.mem_cons_self))
    have begins : ∀ name ∈ limitNames, (Regex.folded name).head? = some 'm' ∨
        (Regex.folded name).head? = some 'r' := by decide
    obtain ⟨m, r⟩ := foldCase_digit digit
    rw [eq, List.cons_append, List.map_cons] at found
    obtain ⟨after, same⟩ := found
    have first := congrArg List.head? same
    rcases begins other mem' with starts | starts
    · rw [List.head?_append, starts] at first
      exact m (Option.some.inj first).symm
    · rw [List.head?_append, starts] at first
      exact r (Option.some.inj first).symm

theorem leadingNumber_eq (text : List Char) :
    leadingNumber text =
      if leadingDigits text = [] then none
      else some ((leadingDigits text).foldl (fun n c => 10 * n + (digit? c).getD 0) 0,
        text.drop (leadingDigits text).length) := by
  unfold leadingNumber
  dsimp only
  rw [leadingDigits]
  simp only [List.isEmpty_iff]

/-- A keyword and its number. -/
theorem keywordNumber_eq_some {keyword : String} {text rest : List Char} {n : Nat}
    (h : keywordNumber keyword text = some (n, rest)) :
    ∃ head digits, text = head ++ digits ++ rest ∧ head.map Regex.foldCase = Regex.folded keyword ∧
      digits ≠ [] ∧ ∀ c ∈ digits, (digit? c).isSome = true := by
  rw [keywordNumber, Regex.rest_word] at h
  split at h
  case isFalse => cases h
  case isTrue spelled =>
    rw [List.head?_cons, Option.bind_some, leadingNumber_eq] at h
    split at h
    · cases h
    · rename_i nonempty
      obtain ⟨-, rfl⟩ := Prod.mk.inj (Option.some.inj h)
      refine ⟨text.take keyword.toList.length, leadingDigits (text.drop keyword.toList.length), ?_,
        ?_, nonempty,
        fun c mem => List.mem_takeWhile_imp (p := fun c => (digit? c).isSome) mem⟩
      · have digits := List.prefix_iff_eq_take.mp
          (List.takeWhile_prefix (fun c => (digit? c).isSome)
            (l := text.drop keyword.toList.length))
        rw [List.append_assoc]
        conv_lhs => rw [← List.take_append_drop keyword.toList.length text]
        congr 1
        conv_lhs =>
          rw [← List.take_append_drop (leadingDigits (text.drop keyword.toList.length)).length
          (text.drop keyword.toList.length)]
        rw [leadingDigits, ← digits]
      · rw [List.map_take, List.prefix_iff_eq_take.mp spelled, Regex.folded, List.length_map]

/-- Once a limit is read, the rest of the text and this limit are left. -/
theorem lastSaid?_step {name other : String} (mem : name ∈ limitNames) (mem' : other ∈ limitNames)
    {text rest : List Char} {n : Nat} (h : keywordNumber name text = some (n, rest)) :
    lastSaid? other text = (lastSaid? other rest).or (said? other text) := by
  obtain ⟨head, digits, rfl, spelled, nonempty, numeric⟩ := keywordNumber_eq_some h
  obtain ⟨c, more, eq⟩ :=
    List.exists_cons_of_ne_nil (List.append_ne_nil_of_right_ne_nil head nonempty)
  have behind : lastSaid? other (more ++ rest) = lastSaid? other rest := by
    refine lastSaid?_append fun tail inner nonempty => ?_
    exact said?_within mem mem' spelled numeric (by rwa [eq, List.tail_cons]) nonempty
  rw [eq, List.cons_append, lastSaid?, behind]

theorem said?_apart {text rest : List Char} {n : Nat}
    (h : keywordNumber "MAILMAX=" text = some (n, rest)) : said? "RCPTMAX=" text = none := by
  obtain ⟨head, digits, rfl, spelled, -⟩ := keywordNumber_eq_some h
  refine said?_of_unspelled fun found => ?_
  rw [List.map_append, List.map_append, spelled] at found
  revert found
  simp [Regex.folded, Regex.foldCase]

/-- What a scan of the whole text finds. -/
theorem scanLimits_eq {fuel : Nat} {text : List Char} (enough : text.length ≤ fuel)
    (mailmax rcptmax : Option Nat) :
    scanLimits fuel text (mailmax, rcptmax) =
      ((lastSaid? "MAILMAX=" text).or mailmax, (lastSaid? "RCPTMAX=" text).or rcptmax) := by
  have mem : "MAILMAX=" ∈ limitNames := List.mem_cons_self
  have mem' : "RCPTMAX=" ∈ limitNames := List.mem_cons_of_mem _ List.mem_cons_self
  induction fuel generalizing text mailmax rcptmax with
  | zero => rw [List.length_eq_zero_iff.mp (Nat.le_zero.mp enough)]; rfl
  | succ fuel ih =>
      cases text with
      | nil => rfl
      | cons c text =>
          have shorter {keyword : String} {n : Nat} {rest : List Char}
              (h : keywordNumber keyword (c :: text) = some (n, rest)) : rest.length ≤ fuel := by
            obtain ⟨head, digits, eq, -, nonempty, -⟩ := keywordNumber_eq_some h
            have lengths := congrArg List.length eq
            have positive := List.length_pos_of_ne_nil nonempty
            simp only [List.length_cons, List.length_append] at lengths enough
            omega
          rw [scanLimits]
          split
          · rename_i n rest found
            rw [ih (shorter found), lastSaid?_step mem mem found, lastSaid?_step mem mem' found,
              said?_apart found, said?, found]
            simp
          · rename_i unsaid
            split
            · rename_i n rest found
              rw [ih (shorter found), lastSaid?_step mem' mem found, lastSaid?_step mem' mem' found,
                said?, unsaid, said?, found]
              simp
            · rename_i unsaid'
              rw [ih (Nat.le_of_succ_le_succ enough), lastSaid?, lastSaid?, said?, unsaid, said?,
                unsaid']
              simp

/-! The first line with a size. -/

theorem lineStart_cons {atLineStart : Bool} {c : Char} {text tail : List Char} :
    LineStart atLineStart (c :: text) tail ↔
      (atLineStart = true ∧ tail = c :: text) ∨ LineStart (c = '\n') text tail := by
  refine or_congr Iff.rfl ⟨?_, ?_⟩
  · rintro ⟨before, eq⟩
    cases before with
    | nil =>
        obtain ⟨rfl, rfl⟩ := List.cons.inj eq
        exact .inl ⟨rfl, rfl⟩
    | cons d before => exact .inr ⟨before, (List.cons.inj eq).2⟩
  · rintro (⟨feed, rfl⟩ | ⟨before, rfl⟩)
    · exact ⟨[], by rw [of_decide_eq_true feed]; rfl⟩
    · exact ⟨c :: before, rfl⟩

theorem LineStart.suffix {atLineStart : Bool} {text tail : List Char}
    (h : LineStart atLineStart text tail) : tail <:+ text := by
  rcases h with ⟨-, rfl⟩ | ⟨before, rfl⟩
  · exact List.suffix_refl _
  · exact (List.suffix_cons '\n' tail).trans (List.suffix_append before _)

theorem scanSize_eq_none {atLineStart : Bool} {text : List Char} :
    scanSize atLineStart text = none ↔
      ∀ tail, LineStart atLineStart text tail → sizeHere tail = none := by
  induction text generalizing atLineStart with
  | nil =>
      refine ⟨fun _ tail starts => ?_, fun _ => rfl⟩
      rw [List.suffix_nil.mp starts.suffix]
      rfl
  | cons c text ih =>
      simp only [lineStart_cons, scanSize]
      split
      · rename_i n found
        refine ⟨fun h => absurd h (Option.some_ne_none n), fun unsized => ?_⟩
        split at found
        · rename_i starts
          rw [unsized _ (.inl ⟨starts, rfl⟩)] at found
          cases found
        · cases found
      · rename_i unsized
        rw [ih]
        constructor
        · rintro unspelled tail (⟨starts, rfl⟩ | later)
          · rwa [if_pos starts] at unsized
          · exact unspelled tail later
        · exact fun unspelled tail later => unspelled tail (.inr later)

theorem scanSize_eq_some {atLineStart : Bool} {text : List Char} {n : Nat} :
    scanSize atLineStart text = some n ↔ FirstSize atLineStart text n := by
  induction text generalizing atLineStart with
  | nil =>
      refine ⟨fun h => by simp [scanSize] at h, fun ⟨tail, starts, sized, _⟩ => ?_⟩
      rw [List.suffix_nil.mp starts.suffix] at sized
      cases sized
  | cons c text ih =>
      rw [scanSize]
      split
      · rename_i m found
        split at found
        case isFalse => cases found
        case isTrue starts =>
          have here : LineStart atLineStart (c :: text) (c :: text) := .inl ⟨starts, rfl⟩
          constructor
          · rintro ⟨⟩
            refine ⟨c :: text, here, found, fun earlier starts suffix other => absurd ?_ other⟩
            exact starts.suffix.eq_of_length_le suffix.length_le
          · rintro ⟨tail, starts', sized, first⟩
            by_cases same : tail = c :: text
            · rw [← sized, same, found]
            · rw [first _ here starts'.suffix (Ne.symm same)] at found
              cases found
      · rename_i unsized
        rw [ih]
        constructor
        · rintro ⟨tail, starts, sized, first⟩
          refine ⟨tail, lineStart_cons.mpr (.inr starts), sized,
            fun earlier starts' suffix other => ?_⟩
          rcases lineStart_cons.mp starts' with ⟨here, rfl⟩ | later
          · rwa [if_pos here] at unsized
          · exact first earlier later suffix other
        · rintro ⟨tail, starts, sized, first⟩
          rcases lineStart_cons.mp starts with ⟨here, rfl⟩ | later
          · rw [if_pos here, sized] at unsized
            cases unsized
          · exact ⟨tail, later, sized, fun earlier starts' =>
              first earlier (lineStart_cons.mpr (.inr starts'))⟩

/-! The lines are read among the rest. -/

theorem leadingNumber_eq_none {text : List Char} :
    leadingNumber text = none ↔ ∀ c rest, text = c :: rest → (digit? c).isSome = false := by
  rw [leadingNumber_eq]
  cases text with
  | nil => simp [leadingDigits]
  | cons c rest =>
      cases digit : digit? c with
      | none => simp [leadingDigits, digit]
      | some n => simp [leadingDigits, digit]

theorem leadingNumber_append {text : List Char} (h : leadingNumber text ≠ none) (more : List Char) :
    leadingNumber (text ++ more) ≠ none := by
  rw [ne_eq, leadingNumber_eq_none] at h ⊢
  intro undigited
  refine h fun c rest eq => undigited c (rest ++ more) ?_
  rw [eq, List.cons_append]

theorem said?_append {keyword : String} {text : List Char} (h : said? keyword text ≠ none)
    (more : List Char) : said? keyword (text ++ more) ≠ none := by
  rw [said?_eq] at h ⊢
  split at h
  case isFalse => exact absurd rfl h
  case isTrue spelled =>
    have long : keyword.toList.length ≤ text.length := by
      simpa [Regex.folded] using spelled.length_le
    rw [if_pos (by rw [List.map_append]; exact spelled.trans (List.prefix_append _ _)),
      List.drop_append_of_le_length long]
    rw [ne_eq, Option.map_eq_none_iff] at h ⊢
    exact leadingNumber_append h more

/-- A line of a keyword stands in the answer, at the beginning of a line. -/
theorem ownLine?_spec {keyword banner : String} {line : List Char}
    (own : ownLine? keyword banner = some line) :
    (line.takeWhile fun c => !isSpace c).map Regex.foldCase = Regex.folded keyword ∧
      ∃ before after, banner.toList = before ++ '\n' :: (line ++ after) := by
  have keyword := List.find?_some own
  exact ⟨of_decide_eq_true keyword, mem_tail_splitOn (List.mem_of_find?_eq_some own)⟩

/-- A parameter is a part of its line. -/
theorem infix_of_mem_lineParams {param line : List Char} (mem : param ∈ lineParams line) :
    param <:+: line :=
  (infix_of_mem_splitOnP (List.mem_of_mem_filter mem)).trans (List.dropWhile_suffix _).isInfix

theorem ownLimit_said {keyword banner : String} {n : Nat} (own : ownLimit keyword banner = some n) :
    lastSaid? keyword banner.toList ≠ none := by
  obtain ⟨line, found, own⟩ := Option.bind_eq_some_iff.mp own
  obtain ⟨-, before, after, whole⟩ := ownLine?_spec found
  obtain ⟨param, mem, value⟩ := List.exists_of_findSome?_eq_some own
  obtain ⟨⟨m, rest⟩, number, -⟩ := Option.bind_eq_some_iff.mp value
  obtain ⟨front, back, rfl⟩ := infix_of_mem_lineParams mem
  intro unsaid
  have said : said? keyword param ≠ none := by rw [said?, number]; exact Option.some_ne_none m
  refine said?_append said (back ++ after) (lastSaid?_eq_none.mp unsaid _ ?_)
  exact ⟨before ++ '\n' :: front, by rw [whole]; simp⟩

theorem ownSize_found {banner : String} {n : Nat} (own : ownSize banner = some n) :
    scanSize true banner.toList ≠ none := by
  obtain ⟨line, found, own⟩ := Option.bind_eq_some_iff.mp own
  obtain ⟨keyword, before, after, whole⟩ := ownLine?_spec found
  obtain ⟨param, first, value⟩ := Option.bind_eq_some_iff.mp own
  obtain ⟨⟨m, rest⟩, number, -⟩ := Option.bind_eq_some_iff.mp value
  intro unsized
  have lineless := scanSize_eq_none.mp unsized (line ++ after) (.inr ⟨before, whole⟩)
  -- the line is its keyword, blanks, and the parameter, which begins with a digit
  generalize params : (line.dropWhile fun c => !isSpace c) = rest' at first
  rw [lineParams, params, head?_words] at first
  split at first
  · cases first
  rename_i nonblank
  have digits : leadingNumber (rest'.dropWhile isSpace) ≠ Option.none := by
    have whole := List.takeWhile_append_dropWhile (p := fun c => !isSpace c)
      (l := rest'.dropWhile isSpace)
    rw [← whole, Option.some.inj first]
    exact leadingNumber_append (by rw [number]; exact Option.some_ne_none _) _
  obtain ⟨b, blanks, eq⟩ := List.exists_cons_of_ne_nil (l := rest') fun empty => by
    simp [empty] at nonblank
  have blank : isSpace b = true := by
    have head := List.head?_dropWhile_not (fun c => !isSpace c) line
    rw [params, eq] at head
    simpa using head
  have here : sizeHere (line ++ after) ≠ Option.none := by
    have whole : line ++ after = (line.takeWhile fun c => !isSpace c) ++ (rest' ++ after) := by
      rw [← List.append_assoc, ← params, List.takeWhile_append_dropWhile]
    have behind : (rest' ++ after).dropWhile isSpace = rest'.dropWhile isSpace ++ after := by
      rw [List.dropWhile_append, if_neg (by simpa using nonblank)]
    rw [sizeHere, whole, Regex.rest_word_append keyword, List.head?_cons, Option.bind_some, eq,
      List.cons_append]
    dsimp only
    rw [if_pos blank, ← List.cons_append, ← eq, behind, ne_eq, Option.map_eq_none_iff]
    exact leadingNumber_append digits after
  exact here lineless

/-! What is read is what is stated. -/

theorem fromEhlo_eq (banner : String) (fallback : ServerLimits) :
    ServerLimits.fromEhlo banner fallback = {
      maxMessagesPerConnection := ((lastSaid? "MAILMAX=" banner.toList).filter (0 < ·)).getD
        fallback.maxMessagesPerConnection
      maxRecipients := ((lastSaid? "RCPTMAX=" banner.toList).filter (0 < ·)).getD
        fallback.maxRecipients
      maxSizeBytes := (scanSize true banner.toList).getD fallback.maxSizeBytes } := by
  have positive (value : Option Nat) (d : Nat) :
      (if value.getD 0 = 0 then d else value.getD 0) = (value.filter (0 < ·)).getD d := by
    cases value with
    | none => rfl
    | some n => cases n <;> simp [Option.filter]
  rw [ServerLimits.fromEhlo, scanLimits_eq (Nat.le_of_eq String.length_toList)]
  simp only [Option.or_none, positive]

theorem eq_of_getD {x y : Option Nat} (same : ∀ d, x.getD d = y.getD d) : x = y := by
  cases x with
  | none => cases y with
    | none => rfl
    | some n => exact absurd (same (n + 1)) (by simp)
  | some m => cases y with
    | none => exact absurd (same (m + 1)) (by simp)
    | some n => exact congrArg some (same 0)

/-- The values that are read and the values that are stated agree when the last place of a limit
has the value of its own line. -/
theorem lastSaid?_eq_ownLimit (keyword banner : String) :
    (lastSaid? keyword banner.toList).filter (0 < ·) = ownLimit keyword banner ↔
      ∀ n, LastSaid keyword banner.toList n →
        ownLimit keyword banner = if n = 0 then none else some n := by
  cases last : lastSaid? keyword banner.toList with
  | none =>
      have silent : ∀ n, ¬ LastSaid keyword banner.toList n := fun n said => by
        rw [← lastSaid?_eq_some, last] at said
        cases said
      have unowned : ownLimit keyword banner = none := by
        by_contra own
        obtain ⟨n, own⟩ := Option.ne_none_iff_exists'.mp own
        exact ownLimit_said own last
      simp [unowned, silent]
  | some m =>
      have only (n : Nat) : LastSaid keyword banner.toList n ↔ m = n := by
        rw [← lastSaid?_eq_some, last, Option.some.injEq]
      simp only [only, forall_eq']
      cases m with
      | zero => simp [Option.filter, eq_comm]
      | succ m => simp [Option.filter, eq_comm]

theorem scanSize_eq_ownSize (banner : String) :
    scanSize true banner.toList = ownSize banner ↔
      ∀ n, FirstSize true banner.toList n → ownSize banner = some n := by
  cases first : scanSize true banner.toList with
  | none =>
      have silent : ∀ n, ¬ FirstSize true banner.toList n := fun n found => by
        rw [← scanSize_eq_some, first] at found
        cases found
      have unowned : ownSize banner = none := by
        by_contra own
        obtain ⟨n, own⟩ := Option.ne_none_iff_exists'.mp own
        exact ownSize_found own first
      simp [unowned, silent]
  | some m =>
      have only (n : Nat) : FirstSize true banner.toList n ↔ m = n := by
        rw [← scanSize_eq_some, first, Option.some.injEq]
      simp only [only, forall_eq']
      exact eq_comm

/-- What is read of an answer is what its lines state, whatever there is to fall back to. -/
theorem readEhlo_iff_undistracted (banner : String) :
    (∀ fallback, ServerLimits.readEhlo banner fallback = .ok (statedLimits banner fallback)) ↔
      Undistracted banner := by
  have agree : (∀ fallback, ServerLimits.fromEhlo banner fallback = statedLimits banner fallback) ↔
      (lastSaid? "MAILMAX=" banner.toList).filter (0 < ·) = ownLimit "MAILMAX=" banner ∧
      (lastSaid? "RCPTMAX=" banner.toList).filter (0 < ·) = ownLimit "RCPTMAX=" banner ∧
      scanSize true banner.toList = ownSize banner := by
    simp only [fromEhlo_eq, statedLimits, ServerLimits.mk.injEq]
    constructor
    · intro same
      exact ⟨eq_of_getD fun d => (same ⟨d, d, d⟩).1, eq_of_getD fun d => (same ⟨d, d, d⟩).2.1,
        eq_of_getD fun d => (same ⟨d, d, d⟩).2.2⟩
    · rintro ⟨mailmax, rcptmax, size⟩ fallback
      rw [mailmax, rcptmax, size]
      exact ⟨rfl, rfl, rfl⟩
  rw [lastSaid?_eq_ownLimit, lastSaid?_eq_ownLimit, scanSize_eq_ownSize] at agree
  by_cases readable : limitOverlong banner.toList = false ∧ sizeOverlong true banner.toList = false
  · have read (fallback : ServerLimits) :
        ServerLimits.readEhlo banner fallback = .ok (.fromEhlo banner fallback) := by
      rw [ServerLimits.readEhlo, readable.1, readable.2]
      rfl
    simp only [read, Except.ok.injEq, agree]
    exact ⟨fun ⟨mailmax, rcptmax, size⟩ => ⟨readable, mailmax, rcptmax, size⟩,
      fun h => ⟨h.mailmax, h.rcptmax, h.size⟩⟩
  · refine ⟨fun h => ?_, fun h => absurd h.readable readable⟩
    have overlong : (limitOverlong banner.toList || sizeOverlong true banner.toList) = true := by
      by_contra short
      exact readable (by simpa using short)
    have raised := h ⟨0, 0, 0⟩
    rw [ServerLimits.readEhlo, if_pos overlong] at raised
    cases raised

/-- A number in the greeting, the name of another limit, the line behind `SIZE` and a size of
zero are all read. -/
theorem strays_are_read :
    ServerLimits.readEhlo "mail RCPTMAX=7" ⟨1, 2, 3⟩ ≠
      .ok (statedLimits "mail RCPTMAX=7" ⟨1, 2, 3⟩) ∧
      ServerLimits.readEhlo "mail\nLIMITS XMAILMAX=5" ⟨1, 2, 3⟩ ≠
        .ok (statedLimits "mail\nLIMITS XMAILMAX=5" ⟨1, 2, 3⟩) ∧
      ServerLimits.readEhlo "mail\nSIZE\n8BITMIME" ⟨1, 2, 3⟩ ≠
        .ok (statedLimits "mail\nSIZE\n8BITMIME" ⟨1, 2, 3⟩) ∧
      ServerLimits.readEhlo "mail\nSIZE 0" ⟨1, 2, 3⟩ ≠
        .ok (statedLimits "mail\nSIZE 0" ⟨1, 2, 3⟩) := by
  refine ⟨?_, ?_, ?_, ?_⟩ <;> decide +kernel

example : ServerLimits.readEhlo "mail\nSIZE 52428800\nLIMITS MAILMAX=100 RCPTMAX=150\nPIPELINING"
    ⟨1, 1, 1⟩ = .ok ⟨100, 150, 52428800⟩ := by decide +kernel

end Emaild
