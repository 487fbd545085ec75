import Mathlib.Data.Bool.AllAny
import Emaild.Logging
import Emaild.Text.Fields

/-!
What the log shows of an API key. Its token may have hyphens and underscores, and what
follows the first of them is not part of what the pattern for the keys takes out.
-/
namespace Emaild
open Text

/-- What `secrets.token_urlsafe(32)` may return. -/
structure ApiToken where
  text : String
  length : text.length = 43
  alphabet : text.toList.all isUrlSafe = true

/-- `generate_api_key`, of a live key. -/
def ApiToken.key (t : ApiToken) : String := "em_live_" ++ t.text

/-- A text that ends where a word may begin. -/
def EndsApart (before : String) : Prop := before = "" ∨ ∃ text, before = text ++ " "

/-- A text that begins where a word may end. -/
def BeginsApart (after : String) : Prop := after = "" ∨ ∃ text, after = " " ++ text

theorem isSpace_of_isAlphanum {c : Char} (h : c.isAlphanum = true) : isSpace c = false := by
  obtain ⟨low, high⟩ := bounds_of_isAlphanum h
  simp only [isSpace, Bool.or_eq_false_iff, Bool.and_eq_false_iff, decide_eq_false_iff_not,
    beq_eq_false_iff_ne]
  omega

/-! The characters around a key keep to themselves. -/

section Apart
variable {sep : Char}

theorem behind?_append {literal : String} (absent : sep ∉ literal.toList) (text rest : List Char) :
    behind? literal (text ++ sep :: rest) = (behind? literal text).map (· ++ sep :: rest) := by
  by_cases spelled : literal.toList <+: text
  · rw [behind?, behind?, if_pos (spelled.trans (List.prefix_append _ _)), if_pos spelled,
      List.drop_append_of_le_length spelled.length_le]
    rfl
  · have longer : ¬ literal.toList <+: text ++ sep :: rest := by
      rintro ⟨more, eq⟩
      rcases List.append_eq_append_iff.mp eq with ⟨between, rfl, -⟩ | ⟨between, whole, ends⟩
      · exact spelled (List.prefix_append _ _)
      · cases between with
        | nil => exact spelled ⟨[], by rw [whole, List.append_nil, List.append_nil]⟩
        | cons d between =>
            rw [List.cons_append] at ends
            exact absent (by rw [whole, (List.cons.inj ends).1]; simp)
    rw [behind?, behind?, if_neg longer, if_neg spelled]
    rfl

theorem takeWhile_append_sep {p : Char → Bool} (stops : p sep = false) (text rest : List Char) :
    (text ++ sep :: rest).takeWhile p = text.takeWhile p := by
  induction text with
  | nil => simp [stops]
  | cons c text ih => cases kept : p c <;> simp [kept, ih]

theorem dropWhile_append_sep {p : Char → Bool} (stops : p sep = false) (text rest : List Char) :
    (text ++ sep :: rest).dropWhile p = text.dropWhile p ++ sep :: rest := by
  induction text with
  | nil => simp [stops]
  | cons c text ih => cases kept : p c <;> simp [kept, ih]

variable (w : WordChars)

/-- A character that neither stands in a key nor is part of a word. -/
def Separates (sep : Char) : Prop := sep = ' ' ∨ sep = '-' ∨ sep = '*'

theorem Separates.isWord (h : Separates sep) : w.isWord sep = false := by
  rcases h with rfl | rfl | rfl <;> rw [w.ascii _ (by decide)] <;> decide

theorem apiKeys_apart (h : Separates sep) : (apiKeys w).Apart sep where
  behind := by
    funext text
    simp only [apiKeys, apiKeyMatch, Option.any_some, h.isWord, Option.any_none]
  here prev rest := by
    have elsewhere (literal : String) (head : literal.toList.head? = some 'e') :
        behind? literal (sep :: rest) = none := by
      obtain ⟨more, eq⟩ := List.head?_eq_some_iff.mp head
      rw [behind?, eq, if_neg]
      rintro ⟨after, spelled⟩
      rcases h with rfl | rfl | rfl <;> cases spelled
    simp only [apiKeys, apiKeyMatch, elsewhere "em_live_" rfl,
      elsewhere "em_test_" rfl]
    split <;> rfl
  before prev text rest nonempty := by
    have absent (literal : String) (word : literal.toList.all fun c => c.isAlphanum || c = '_') :
        sep ∉ literal.toList := by
      intro mem
      have kind := List.all_eq_true.mp word sep mem
      rcases h with rfl | rfl | rfl <;> exact absurd kind (by decide)
    have alnum : sep.isAlphanum = false := by rcases h with rfl | rfl | rfl <;> rfl
    simp only [apiKeys, apiKeyMatch, behind?_append (absent "em_live_" (by decide)),
      behind?_append (absent "em_test_" (by decide)), ← Option.map_or]
    split
    · rfl
    · cases (behind? "em_live_" text).or (behind? "em_test_" text) with
      | none => rfl
      | some found =>
          simp only [Option.map_some, Option.bind_eq_bind, Option.bind_some,
            takeWhile_append_sep alnum]

theorem mxrouteKeys_apart (h : Separates sep) : (mxrouteKeys w).Apart sep where
  behind := by
    funext text
    simp only [mxrouteKeys, mxrouteKeyMatch, Option.any_some, h.isWord, Option.any_none]
  here prev rest := by
    have elsewhere : behind? "Mx" (sep :: rest) = none := by
      rw [behind?, if_neg]
      rintro ⟨after, spelled⟩
      rcases h with rfl | rfl | rfl <;> cases spelled
    simp only [mxrouteKeys, mxrouteKeyMatch, elsewhere]
    split <;> rfl
  before prev text rest nonempty := by
    have absent : sep ∉ "Mx".toList := by rcases h with rfl | rfl | rfl <;> decide
    have hex : isHexDigit sep = false := by rcases h with rfl | rfl | rfl <;> rfl
    have other : sep ≠ 'K' := by rcases h with rfl | rfl | rfl <;> decide
    have digit : digit? sep = Option.none := by rcases h with rfl | rfl | rfl <;> decide
    -- the end of a key is read from the three characters behind its digits
    have ends (text : List Char) :
        mxrouteKeyEnd w (text ++ sep :: rest) = mxrouteKeyEnd w text := by
      rcases text with _ | ⟨k, _ | ⟨d, _ | ⟨next, more⟩⟩⟩ <;>
        simp [mxrouteKeyEnd, other, digit, h.isWord w]
    simp only [mxrouteKeys, mxrouteKeyMatch, behind?_append absent]
    split
    · rfl
    · cases behind? "Mx" text with
      | none => rfl
      | some found =>
          simp only [Option.map_some, Option.bind_eq_bind, Option.bind_some,
            takeWhile_append_sep hex, dropWhile_append_sep hex, ends]

end Apart

/-! A key between spaces is taken apart from what is around it. -/

section Between
variable {p : Pattern} {before after : List Char}

/-- What is before and behind a key is rewritten on its own, and stays apart from it. -/
theorem sub_between (apart : p.Apart ' ') (ends : before = [] ∨ ∃ text, before = text ++ [' '])
    (begins : after = [] ∨ ∃ text, after = ' ' :: text) :
    ∃ before' after', (before' = [] ∨ ∃ text, before' = text ++ [' ']) ∧
      (after' = [] ∨ ∃ text, after' = ' ' :: text) ∧
      ∀ key, p.sub (before ++ key ++ after) = before' ++ p.sub key ++ after' := by
  have behind : ∃ after', (after' = [] ∨ ∃ text, after' = ' ' :: text) ∧
      ∀ key, p.sub (key ++ after) = p.sub key ++ after' := by
    rcases begins with rfl | ⟨text, rfl⟩
    · exact ⟨[], .inl rfl, fun key => by rw [List.append_nil, List.append_nil]⟩
    · exact ⟨' ' :: p.sub text, .inr ⟨_, rfl⟩, fun key => apart.sub_append key text⟩
  obtain ⟨after', begins', behind⟩ := behind
  rcases ends with rfl | ⟨text, rfl⟩
  · exact ⟨[], after', .inl rfl, begins', fun key => by simpa using behind key⟩
  · refine ⟨p.sub text ++ [' '], after', .inr ⟨_, rfl⟩, begins', fun key => ?_⟩
    have split : text ++ [' '] ++ key ++ after = text ++ ' ' :: (key ++ after) := by simp
    rw [split, apart.sub_append, behind]
    simp

end Between

/-! What is left of a key. -/

/-- A part of a key that begins like one, with a letter or digit behind it. -/
def beginsKey (part : List Char) : Bool :=
  ("em_live_".toList.isPrefixOf part || "em_test_".toList.isPrefixOf part) &&
    (part.drop 8).head?.any Char.isAlphanum

/-- A part of a key that is a key of MXRoute. -/
def isMxrouteKey (part : List Char) : Bool :=
  "Mx".toList.isPrefixOf part &&
    let run := (part.drop 2).takeWhile isHexDigit
    28 ≤ run.length && (part.drop (2 + run.length)).head? = some 'K' &&
      (part.drop (3 + run.length)).length = 1 &&
      (part.drop (3 + run.length)).all fun d => (digit? d).isSome

/-- What is left of a part between hyphens. -/
def maskPart (part : List Char) : List Char :=
  if beginsKey part then "em_***".toList ++ (part.drop 8).dropWhile Char.isAlphanum
  else if isMxrouteKey part then "Mx***".toList
  else part

/-- The parts of a key between hyphens, as far as they are shown. -/
def ApiToken.remnant (t : ApiToken) : List (List Char) :=
  (t.key.toList.splitOn '-').map maskPart

/-- A part of a key between its hyphens. -/
def PlainPart (part : List Char) : Prop := ∀ c ∈ part, c.isAlphanum = true ∨ c = '_'

section Parts
variable (w : WordChars) {part : List Char}

theorem PlainPart.isWord (plain : PlainPart part) {c : Char} (mem : c ∈ part) :
    w.isWord c = true := by
  have kind := plain c mem
  rw [w.ascii c ?_]
  · simpa using kind
  · rcases kind with alnum | rfl
    · exact Nat.lt_of_le_of_lt (bounds_of_isAlphanum alnum).2 (by decide)
    · decide

theorem PlainPart.sub_apiKeys (plain : PlainPart part) :
    (apiKeys w).sub part =
      if beginsKey part then "em_***".toList ++ (part.drop 8).dropWhile Char.isAlphanum
      else part := by
  have found : (apiKeys w).match? none part = if beginsKey part then
      some ("em_***".toList, 8 + ((part.drop 8).takeWhile Char.isAlphanum).length) else none := by
    have behind (literal : String) (eight : literal.toList.length = 8) :
        behind? literal part =
          if literal.toList.isPrefixOf part then some (part.drop 8) else none := by
      rw [behind?, eight]
      simp only [List.isPrefixOf_iff_prefix]
    have either : (behind? "em_live_" part).or (behind? "em_test_" part) =
        if ("em_live_".toList.isPrefixOf part || "em_test_".toList.isPrefixOf part) = true then
          some (part.drop 8) else none := by
      rw [behind _ rfl, behind _ rfl]
      generalize "em_live_".toList.isPrefixOf part = live
      generalize "em_test_".toList.isPrefixOf part = test
      cases live <;> cases test <;> rfl
    have begins : beginsKey part = true ↔
        ("em_live_".toList.isPrefixOf part || "em_test_".toList.isPrefixOf part) = true ∧
          (part.drop 8).takeWhile Char.isAlphanum ≠ [] := by
      rw [beginsKey, Bool.and_eq_true, ne_eq, takeWhile_eq_nil, Bool.not_eq_false]
    simp only [apiKeys, apiKeyMatch, Option.any_none, either, begins]
    by_cases prefixed :
        ("em_live_".toList.isPrefixOf part || "em_test_".toList.isPrefixOf part) = true
    · rw [if_neg Bool.false_ne_true, if_pos prefixed, Option.bind_eq_bind, Option.bind_some]
      by_cases empty : (part.drop 8).takeWhile Char.isAlphanum = []
      · rw [if_pos empty, if_neg fun h => h.2 empty]
      · rw [if_neg empty, if_pos ⟨prefixed, empty⟩]
    · rw [if_neg Bool.false_ne_true, if_neg prefixed, if_neg fun h => prefixed h.1]
      rfl
  rw [Pattern.sub_of_head, found]
  · split
    · rename_i put n eq
      split at eq
      · obtain ⟨rfl, rfl⟩ := Prod.mk.inj (Option.some.inj eq)
        rw [if_pos ‹_›, ← List.drop_drop, drop_takeWhile_length]
      · cases eq
    · rename_i eq
      split at eq
      · cases eq
      · rw [if_neg ‹_›]
  · intro front c rest whole
    have word := plain.isWord w (c := c) (by rw [whole]; simp)
    simp only [apiKeys, apiKeyMatch, Option.any_some, word, if_true]

theorem PlainPart.sub_mxrouteKeys (plain : PlainPart part) :
    (mxrouteKeys w).sub part = if isMxrouteKey part then "Mx***".toList else part := by
  have found : (mxrouteKeys w).match? none part = if isMxrouteKey part then
      some ("Mx***".toList, part.length) else none := by
    have behind :
        behind? "Mx" part = if "Mx".toList.isPrefixOf part then some (part.drop 2) else none := by
      rw [behind?]
      simp only [List.isPrefixOf_iff_prefix]
      rfl
    -- behind the last digit a part of a key has nothing but characters of words
    have ends (text : List Char) (inner : ∀ c ∈ text, c ∈ part) : mxrouteKeyEnd w text =
        (text.head? = some 'K' && (text.drop 1).length = 1 &&
          (text.drop 1).all fun d => (digit? d).isSome) := by
      rcases text with _ | ⟨k, _ | ⟨d, _ | ⟨next, more⟩⟩⟩
      · simp [mxrouteKeyEnd]
      · simp [mxrouteKeyEnd]
      · simp [mxrouteKeyEnd]
      · have word := plain.isWord w (inner next (by simp))
        simp [mxrouteKeyEnd, word]
    have whole := ends ((part.drop 2).dropWhile isHexDigit) fun c mem =>
      List.mem_of_mem_drop ((List.dropWhile_suffix _).subset mem)
    rw [← drop_takeWhile_length, List.drop_drop, List.drop_drop] at whole
    have key : isMxrouteKey part = true ↔ "Mx".toList.isPrefixOf part = true ∧
        28 ≤ ((part.drop 2).takeWhile isHexDigit).length ∧
        mxrouteKeyEnd w ((part.drop 2).dropWhile isHexDigit) = true := by
      rw [← drop_takeWhile_length, List.drop_drop, whole, isMxrouteKey]
      simp only [Bool.and_eq_true, decide_eq_true_eq, Nat.add_right_comm 2 _ 1]
      tauto
    have length (h : isMxrouteKey part = true) :
        4 + ((part.drop 2).takeWhile isHexDigit).length = part.length := by
      simp only [isMxrouteKey, Bool.and_eq_true, decide_eq_true_eq, List.length_drop] at h
      omega
    simp only [mxrouteKeys, mxrouteKeyMatch, Option.any_none, behind]
    rw [if_neg Bool.false_ne_true]
    by_cases prefixed : "Mx".toList.isPrefixOf part = true
    · rw [if_pos prefixed, Option.bind_eq_bind, Option.bind_some]
      by_cases holds : isMxrouteKey part = true
      · rw [if_pos holds, if_pos (key.mp holds).2, length holds]
      · rw [if_neg holds, if_neg fun h => holds (key.mpr ⟨prefixed, h⟩)]
    · rw [if_neg prefixed, if_neg fun holds => prefixed (key.mp holds).1]
      rfl
  rw [Pattern.sub_of_head, found]
  · split
    · rename_i put n eq
      split at eq
      · obtain ⟨rfl, rfl⟩ := Prod.mk.inj (Option.some.inj eq)
        rw [if_pos ‹_›, List.drop_length, List.append_nil]
      · cases eq
    · rename_i eq
      split at eq
      · cases eq
      · rw [if_neg ‹_›]
  · intro front c rest whole
    have word := plain.isWord w (c := c) (by rw [whole]; simp)
    simp only [mxrouteKeys, mxrouteKeyMatch, Option.any_some, word, if_true]

/-- What is left of a part once both patterns for keys have gone over it. -/
theorem PlainPart.sub_sub (plain : PlainPart part) :
    (mxrouteKeys w).sub ((apiKeys w).sub part) = maskPart part := by
  rw [plain.sub_apiKeys, maskPart]
  split
  case isFalse => exact plain.sub_mxrouteKeys w
  case isTrue =>
    have star : (mxrouteKeys w).Apart '*' := mxrouteKeys_apart w (.inr (.inr rfl))
    have inner : PlainPart ((part.drop 8).dropWhile Char.isAlphanum) := fun c mem =>
      plain c (List.mem_of_mem_drop ((List.dropWhile_suffix _).subset mem))
    have other : isMxrouteKey ((part.drop 8).dropWhile Char.isAlphanum) = false := by
      have first := head?_dropWhile Char.isAlphanum (part.drop 8)
      generalize (part.drop 8).dropWhile Char.isAlphanum = rest at first
      cases rest with
      | nil => rfl
      | cons c rest =>
          have ne : ¬ 'M' = c := by
            rintro rfl
            cases first
          simp [isMxrouteKey, ne]
    have stars : "em_***".toList ++ (part.drop 8).dropWhile Char.isAlphanum = "em_".toList ++
        '*' :: ([] ++ '*' :: ([] ++ '*' :: (part.drop 8).dropWhile Char.isAlphanum)) := rfl
    have word : PlainPart "em_".toList := List.all_iff_forall_prop.mp (by decide)
    rw [stars, star.sub_append, star.sub_append, star.sub_append, word.sub_mxrouteKeys w,
      inner.sub_mxrouteKeys w, other]
    rfl

end Parts

section Keys
variable (w : WordChars) (t : ApiToken)

theorem ApiToken.key_urlSafe : t.key.toList.all isUrlSafe = true := by
  rw [ApiToken.key, String.toList_append, List.all_append, t.alphabet]
  decide

theorem ApiToken.plain_of_mem {part : List Char} (mem : part ∈ t.key.toList.splitOn '-') :
    PlainPart part := by
  intro c inner
  rw [List.splitOn_eq_splitOnP] at mem
  have safe := List.all_eq_true.mp t.key_urlSafe c ((infix_of_mem_splitOnP mem).subset inner)
  have other : c ≠ '-' := by simpa using not_of_mem_splitOnP mem c inner
  simpa [isUrlSafe, other] using safe

/-- What the patterns for keys leave of a key. -/
theorem ApiToken.sub_sub : (mxrouteKeys w).sub ((apiKeys w).sub t.key.toList) =
    ['-'].intercalate t.remnant := by
  have apart := apiKeys_apart w (.inr (.inl rfl))
  have apart' := mxrouteKeys_apart w (.inr (.inl rfl))
  have whole : ['-'].intercalate (t.key.toList.splitOn '-') = t.key.toList :=
    List.intercalate_splitOn '-'
  conv_lhs => rw [← whole]
  rw [apart.sub_intercalate, apart'.sub_intercalate, List.map_map, ApiToken.remnant]
  congr 1
  exact List.map_congr_left fun part mem => (t.plain_of_mem mem).sub_sub w

/-- The patterns behind the first two need a character that no part of a key has. -/
theorem sub_of_remnant {text : List Char}
    (kept : ∀ c ∈ text, c ≠ '=' ∧ c ≠ ':' ∧ isSpace c = false) :
    (bearerTokens w).sub ((assignedSecrets w).sub (dsnPasswords.sub (fernetKeys.sub text))) =
      text := by
  have fernet : fernetKeys.sub text = text := Pattern.sub_eq_self _ fun prev rest inner => by
    by_contra found
    obtain ⟨⟨put, n⟩, found⟩ := Option.ne_none_iff_exists'.mp found
    obtain ⟨-, -, run, more, rfl, -⟩ := fernetKeyMatch_eq_some found
    exact (kept '=' (inner.subset (by simp))).1 rfl
  have dsn : dsnPasswords.sub text = text := Pattern.sub_eq_self _ fun prev rest inner => by
    by_contra found
    obtain ⟨⟨put, n⟩, found⟩ := Option.ne_none_iff_exists'.mp found
    obtain ⟨user, value, more, rfl, -⟩ := dsnPasswordMatch_eq_some found
    exact (kept ':' (inner.subset (by simp))).2.1 rfl
  have assigned : (assignedSecrets w).sub text = text :=
    Pattern.sub_eq_self _ fun prev rest inner => by
    by_contra found
    obtain ⟨⟨put, n⟩, found⟩ := Option.ne_none_iff_exists'.mp found
    obtain ⟨-, name, -, head, blanks, c, blanks', value, more, rfl, -, -, sign, -⟩ :=
      assignedSecretMatch_eq_some found
    have plain := kept c (inner.subset (by simp))
    rcases sign with rfl | rfl
    · exact plain.1 rfl
    · exact plain.2.1 rfl
  have bearer : (bearerTokens w).sub text = text := Pattern.sub_eq_self _ fun prev rest inner => by
    by_contra found
    obtain ⟨⟨put, n⟩, found⟩ := Option.ne_none_iff_exists'.mp found
    obtain ⟨-, -, head, blanks, value, more, rfl, -, nonempty, spaces, -⟩ :=
      bearerMatch_eq_some found
    obtain ⟨c, blanks, rfl⟩ := List.exists_cons_of_ne_nil nonempty
    have blank := List.all_eq_true.mp spaces c List.mem_cons_self
    rw [(kept c (inner.subset (by simp))).2.2] at blank
    cases blank
  rw [fernet, dsn, assigned, bearer]

theorem redact_toList (text : String) : (redact w text).toList =
    (bearerTokens w).sub ((assignedSecrets w).sub (dsnPasswords.sub (fernetKeys.sub
      ((mxrouteKeys w).sub ((apiKeys w).sub text.toList))))) := by
  rw [redact, String.toList_ofList]
  rfl

theorem ApiToken.remnant_plain {part : List Char} (mem : part ∈ t.remnant) :
    ∀ c ∈ part, c.isAlphanum = true ∨ c = '_' ∨ c = '*' := by
  obtain ⟨source, among, rfl⟩ := List.mem_map.mp mem
  have plain := t.plain_of_mem among
  unfold maskPart
  split
  · intro c inner
    have stars : ∀ c ∈ "em_***".toList, c.isAlphanum = true ∨ c = '_' ∨ c = '*' :=
      List.all_iff_forall_prop.mp (by decide)
    rcases List.mem_append.mp inner with inner | inner
    · exact stars c inner
    · rcases plain c
        (List.mem_of_mem_drop ((List.dropWhile_suffix _).subset inner)) with kind | kind
      · exact .inl kind
      · exact .inr (.inl kind)
  split
  · exact List.all_iff_forall_prop.mp (by decide)
  · intro c inner
    rcases plain c inner with kind | kind
    · exact .inl kind
    · exact .inr (.inl kind)

/-- What is left of a key has no hyphens of its own. -/
theorem ApiToken.splitOn_remnant : (['-'].intercalate t.remnant).splitOn '-' = t.remnant := by
  refine List.splitOn_intercalate '-' (fun part mem hyphen => ?_) ?_
  · rcases t.remnant_plain mem _ hyphen with kind | kind | kind <;> exact absurd kind (by decide)
  · exact fun empty => List.splitOn_ne_nil '-' t.key.toList (List.map_eq_nil_iff.mp empty)

/-- A key on a line of its own. -/
theorem ApiToken.redact_key : redact w t.key = .ofList (['-'].intercalate t.remnant) := by
  apply String.toList_inj.mp
  rw [redact_toList, t.sub_sub, String.toList_ofList]
  refine sub_of_remnant w fun c mem => ?_
  rcases mem_intercalate mem with rfl | ⟨part, among, inner⟩
  · decide
  rcases t.remnant_plain among c inner with kind | rfl | rfl
  · refine ⟨?_, ?_, isSpace_of_isAlphanum kind⟩
    · rintro rfl
      cases kind
    · rintro rfl
      cases kind
  · decide
  · decide

/-- Two keys look the same on every line exactly if the same is left of them. -/
theorem redact_eq_iff_remnant (t₁ t₂ : ApiToken) :
    (∀ before after, EndsApart before → BeginsApart after →
      redact w (before ++ t₁.key ++ after) = redact w (before ++ t₂.key ++ after)) ↔
      t₁.remnant = t₂.remnant := by
  constructor
  · intro same
    have alone := same "" "" (.inl rfl) (.inl rfl)
    rw [String.empty_append, String.append_empty, String.empty_append, String.append_empty,
      t₁.redact_key, t₂.redact_key] at alone
    rw [← t₁.splitOn_remnant, String.ofList_injective alone, t₂.splitOn_remnant]
  · intro same before after ends begins
    have ends' : before.toList = [] ∨ ∃ text, before.toList = text ++ [' '] := by
      rcases ends with rfl | ⟨text, rfl⟩
      · exact .inl rfl
      · exact .inr ⟨text.toList, String.toList_append⟩
    have begins' : after.toList = [] ∨ ∃ text, after.toList = ' ' :: text := by
      rcases begins with rfl | ⟨text, rfl⟩
      · exact .inl rfl
      · exact .inr ⟨text.toList, String.toList_append⟩
    obtain ⟨before', after', ends', begins', first⟩ :=
      sub_between (apiKeys_apart w (.inl rfl)) ends' begins'
    obtain ⟨before'', after'', -, -, second⟩ :=
      sub_between (mxrouteKeys_apart w (.inl rfl)) ends' begins'
    apply String.toList_inj.mp
    have split (t : ApiToken) : (before ++ t.key ++ after).toList =
        before.toList ++ t.key.toList ++ after.toList := by simp
    rw [redact_toList, redact_toList, split, split, first, first, second, second, t₁.sub_sub,
      t₂.sub_sub, same]

end Keys

/-! Which keys look the same, said of their characters. -/

/-- Two parts of keys that no line tells apart: both begin like a key and go on alike behind
their letters and digits, or both are keys of MXRoute. -/
inductive Alike : List Char → List Char → Prop
  | same (part : List Char) : Alike part part
  | keys {head head' run run' : List Char} (rest : List Char)
      (heads : ∀ h ∈ [head, head'], h = "em_live_".toList ∨ h = "em_test_".toList)
      (letters : ∀ r ∈ [run, run'], r ≠ [] ∧ r.all Char.isAlphanum = true)
      (stops : rest.head?.any Char.isAlphanum = false) :
      Alike (head ++ run ++ rest) (head' ++ run' ++ rest)
  | mxroute {part part' : List Char} (key : isMxrouteKey part = true)
      (key' : isMxrouteKey part' = true) : Alike part part'

theorem forall_mem_pair {α : Type} {P : α → Prop} {a a' : α} (h : P a) (h' : P a') :
    ∀ x ∈ [a, a'], P x :=
  List.forall_mem_cons.mpr ⟨h, List.forall_mem_singleton.mpr h'⟩

section Parts
variable {part part' : List Char}

/-- What a part that begins like a key is made of. -/
theorem beginsKey_iff : beginsKey part = true ↔ ∃ head run rest, part = head ++ run ++ rest ∧
    (head = "em_live_".toList ∨ head = "em_test_".toList) ∧
      (run ≠ [] ∧ run.all Char.isAlphanum = true) ∧ rest.head?.any Char.isAlphanum = false := by
  simp only [beginsKey, Bool.and_eq_true, Bool.or_eq_true, List.isPrefixOf_iff_prefix]
  constructor
  · rintro ⟨headed, next⟩
    have parts (head : List Char) (eight : head.length = 8) (headed : head <+: part) :
        part = head ++ (part.drop 8).takeWhile Char.isAlphanum ++
          (part.drop 8).dropWhile Char.isAlphanum := by
      obtain ⟨more, rfl⟩ := headed
      rw [List.append_assoc, List.takeWhile_append_dropWhile, ← eight, List.drop_left]
    have run : (part.drop 8).takeWhile Char.isAlphanum ≠ [] := fun empty => by
      rw [takeWhile_eq_nil.mp empty] at next
      cases next
    have letters := all_takeWhile Char.isAlphanum (part.drop 8)
    have stops := head?_dropWhile Char.isAlphanum (part.drop 8)
    rcases headed with live | test
    · exact ⟨_, _, _, parts _ rfl live, .inl rfl, ⟨run, letters⟩, stops⟩
    · exact ⟨_, _, _, parts _ rfl test, .inr rfl, ⟨run, letters⟩, stops⟩
  · rintro ⟨head, run, rest, rfl, heads, ⟨nonempty, letters⟩, -⟩
    have eight : head.length = 8 := by rcases heads with rfl | rfl <;> rfl
    obtain ⟨c, run, rfl⟩ := List.exists_cons_of_ne_nil nonempty
    rw [List.append_assoc]
    refine ⟨heads.imp ?_ ?_, ?_⟩
    · rintro rfl
      exact List.prefix_append _ _
    · rintro rfl
      exact List.prefix_append _ _
    · rw [← eight, List.drop_left]
      exact List.all_eq_true.mp letters c List.mem_cons_self

theorem maskPart_key {head run rest : List Char}
    (heads : head = "em_live_".toList ∨ head = "em_test_".toList)
    (letters : run ≠ [] ∧ run.all Char.isAlphanum = true)
    (stops : rest.head?.any Char.isAlphanum = false) :
    maskPart (head ++ run ++ rest) = "em_***".toList ++ rest := by
  have eight : head.length = 8 := by rcases heads with rfl | rfl <;> rfl
  have behind : rest.dropWhile Char.isAlphanum = rest := by
    cases rest with
    | nil => rfl
    | cons c rest => exact List.dropWhile_cons_of_neg (by simpa using stops)
  rw [maskPart, if_pos (beginsKey_iff.mpr ⟨_, _, _, rfl, heads, letters, stops⟩), List.append_assoc,
    ← eight, List.drop_left, List.dropWhile_append_of_pos fun c mem =>
      List.all_eq_true.mp letters.2 c mem, behind]

theorem PlainPart.ne_masked (plain : PlainPart part) (head : List Char) {rest : List Char} :
    part ≠ head ++ '*' :: rest := by
  rintro rfl
  rcases plain '*' (by simp) with letter | score
  · cases letter
  · cases score

theorem isMxrouteKey_head (key : isMxrouteKey part = true) : part.head? = some 'M' := by
  simp only [isMxrouteKey, Bool.and_eq_true, List.isPrefixOf_iff_prefix] at key
  obtain ⟨more, rfl⟩ := key.1
  rfl

theorem beginsKey_head (key : beginsKey part = true) : part.head? = some 'e' := by
  obtain ⟨head, run, rest, rfl, heads, -⟩ := beginsKey_iff.mp key
  rcases heads with rfl | rfl <;> rfl

/-- A part either begins like a key, or is a key of MXRoute, or is shown as it is. -/
theorem maskPart_eq_iff (plain : PlainPart part) (plain' : PlainPart part') :
    maskPart part = maskPart part' ↔ Alike part part' := by
  constructor
  · intro same
    by_cases key : beginsKey part = true
    · obtain ⟨head, run, rest, rfl, heads, letters, stops⟩ := beginsKey_iff.mp key
      rw [maskPart_key heads letters stops] at same
      by_cases key' : beginsKey part' = true
      · obtain ⟨head', run', rest', rfl, heads', letters', stops'⟩ := beginsKey_iff.mp key'
        rw [maskPart_key heads' letters' stops'] at same
        obtain rfl := List.append_cancel_left same
        exact .keys rest (forall_mem_pair heads heads') (forall_mem_pair letters letters') stops
      · rw [maskPart, if_neg key'] at same
        split at same
        · cases same
        · exact absurd same.symm (plain'.ne_masked "em_".toList)
    · rw [maskPart, if_neg key] at same
      by_cases key' : beginsKey part' = true
      · obtain ⟨head', run', rest', rfl, heads', letters', stops'⟩ := beginsKey_iff.mp key'
        rw [maskPart_key heads' letters' stops'] at same
        split at same
        · cases same
        · exact absurd same (plain.ne_masked "em_".toList)
      · rw [maskPart, if_neg key'] at same
        split at same
        · rename_i mx
          split at same
          · rename_i mx'
            exact .mxroute mx mx'
          · exact absurd same.symm (plain'.ne_masked "Mx".toList)
        · split at same
          · exact absurd same (plain.ne_masked "Mx".toList)
          · exact same ▸ .same part
  · intro alike
    cases alike with
    | same => rfl
    | keys rest heads letters stops =>
        simp only [List.forall_mem_cons] at heads letters
        rw [maskPart_key heads.1 letters.1 stops, maskPart_key heads.2.1 letters.2.1 stops]
    | mxroute key key' =>
        have other {part : List Char} (key : isMxrouteKey part = true) : beginsKey part ≠ true := by
          intro begins
          cases (beginsKey_head begins).symm.trans (isMxrouteKey_head key)
        rw [maskPart, maskPart, if_neg (other key), if_neg (other key'), if_pos key, if_pos key']

theorem map_maskPart_eq_iff {parts parts' : List (List Char)} (plain : ∀ p ∈ parts, PlainPart p)
    (plain' : ∀ p ∈ parts', PlainPart p) :
    parts.map maskPart = parts'.map maskPart ↔ List.Forall₂ Alike parts parts' := by
  induction parts generalizing parts' with
  | nil => simp [eq_comm]
  | cons p parts ih =>
      cases parts' with
      | nil => simp
      | cons p' parts' =>
          obtain ⟨first, rest⟩ := List.forall_mem_cons.mp plain
          obtain ⟨first', rest'⟩ := List.forall_mem_cons.mp plain'
          rw [List.map_cons, List.map_cons, List.cons.injEq, List.forall₂_cons,
            maskPart_eq_iff first first', ih rest rest']

end Parts

/-- Two keys look the same on every line exactly if they have as many parts between hyphens,
each like the other. -/
theorem redact_eq_iff_alike (w : WordChars) (t₁ t₂ : ApiToken) :
    (∀ before after, EndsApart before → BeginsApart after →
      redact w (before ++ t₁.key ++ after) = redact w (before ++ t₂.key ++ after)) ↔
      List.Forall₂ Alike (t₁.key.toList.splitOn '-') (t₂.key.toList.splitOn '-') := by
  rw [redact_eq_iff_remnant]
  exact map_maskPart_eq_iff (fun _ => t₁.plain_of_mem) fun _ => t₂.plain_of_mem

namespace Sample

/-- `\w`, of a text without other letters than those of ASCII. -/
def asciiWords : WordChars := ⟨fun c => c.isAlphanum || c = '_', fun _ _ => rfl⟩

theorem hyphened_shape : "ab-dSsaYc4mLr0wVbGk2TqXo9nJzEhPuI7fRx3Cv6yD".length = 43 ∧
    "ab-dSsaYc4mLr0wVbGk2TqXo9nJzEhPuI7fRx3Cv6yD".toList.all isUrlSafe = true := by decide

/-- A token with a hyphen behind its second character. -/
def hyphened : ApiToken := ⟨_, hyphened_shape.1, hyphened_shape.2⟩

theorem underscored_shape : "ab_dSsaYc4mLr0wVbGk2TqXo9nJzEhPuI7fRx3Cv6yD".length = 43 ∧
    "ab_dSsaYc4mLr0wVbGk2TqXo9nJzEhPuI7fRx3Cv6yD".toList.all isUrlSafe = true := by decide

def underscored : ApiToken := ⟨_, underscored_shape.1, underscored_shape.2⟩

end Sample

theorem rest_of_key_in_log : ¬ ∀ (w : WordChars) (t₁ t₂ : ApiToken) (before after : String),
    EndsApart before → BeginsApart after →
      redact w (before ++ t₁.key ++ after) = redact w (before ++ t₂.key ++ after) := by
  intro same
  have shown : redact Sample.asciiWords ("Authorization: Bearer " ++ Sample.hyphened.key ++ "") =
      "Authorization: *** em_***-dSsaYc4mLr0wVbGk2TqXo9nJzEhPuI7fRx3Cv6yD" := by decide +kernel
  have shown' :
      redact Sample.asciiWords ("Authorization: Bearer " ++ Sample.underscored.key ++ "") =
      "Authorization: *** em_***_dSsaYc4mLr0wVbGk2TqXo9nJzEhPuI7fRx3Cv6yD" := by decide +kernel
  have equal :=
    same Sample.asciiWords Sample.hyphened Sample.underscored "Authorization: Bearer " ""
    (.inr ⟨"Authorization: Bearer", rfl⟩) (.inl rfl)
  rw [shown, shown'] at equal
  exact absurd equal (by decide)

end Emaild
