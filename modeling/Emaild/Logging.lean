import Mathlib.Data.List.TakeWhile
import Emaild.Text.Python
import Emaild.Text.Regex
import Emaild.Text.Substitution

/-!
What is taken out of every line of the log: six patterns, one after the other, each over
what the ones before it have left.
-/
namespace Emaild
open Text

/-- `\w`. Which characters outside ASCII are letters or digits is for the Unicode tables. -/
structure WordChars where
  isWord : Char → Bool
  ascii : ∀ c, c.toNat < 128 → isWord c = (c.isAlphanum || c = '_')

/-- `[A-Za-z0-9_-]` -/
def isUrlSafe (c : Char) : Bool := c.isAlphanum || c = '_' || c = '-'

/-- What follows a literal at the head of a text. -/
def behind? (literal : String) (text : List Char) : Option (List Char) :=
  if literal.toList <+: text then some (text.drop literal.toList.length) else none

/-- `[^:/@\s]` -/
def isUserChar (c : Char) : Bool := !(c = ':' || c = '/' || c = '@' || isSpace c)

/-- `[^@/\s]` -/
def isSecretChar (c : Char) : Bool := !(c = '@' || c = '/' || isSpace c)

/-- `\S` -/
def isInk (c : Char) : Bool := !isSpace c

section Patterns
variable (w : WordChars) (prev : Option Char) (text : List Char)

/-- `\bem_(live|test)_[A-Za-z0-9]+` -/
def apiKeyMatch : Option (List Char × Nat) :=
  if prev.any w.isWord then none
  else do
    let rest ← (behind? "em_live_" text).or (behind? "em_test_" text)
    let run := rest.takeWhile Char.isAlphanum
    if run = [] then none else some ("em_***".toList, 8 + run.length)

/-- `K\d\b` -/
def mxrouteKeyEnd : Bool :=
  text.head? = some 'K' && (text.tail.head?.any fun d => (digit? d).isSome) &&
    !(text.tail.tail.head?.any w.isWord)

/-- `\bMx[0-9a-fA-F]{28,}K\d\b` -/
def mxrouteKeyMatch : Option (List Char × Nat) :=
  if prev.any w.isWord then none
  else do
    let rest ← behind? "Mx" text
    let run := rest.takeWhile isHexDigit
    if 28 ≤ run.length ∧ mxrouteKeyEnd w (rest.dropWhile isHexDigit) then
      some ("Mx***".toList, 4 + run.length)
    else none

/-- `(?<![A-Za-z0-9_-])[A-Za-z0-9_-]{43}=(?![A-Za-z0-9_=-])` -/
def fernetKeyMatch : Option (List Char × Nat) :=
  if prev.any isUrlSafe then none
  else match text.drop 43 with
    | '=' :: more =>
        if (text.take 43).all isUrlSafe ∧
            (more.head?.any fun c => isUrlSafe c || c = '=') = false then
          some ("***key***".toList, 44)
        else none
    | _ => none

/-- `(://[^:/@\s]+:)[^@/\s]+(@)` -/
def dsnPasswordMatch : Option (List Char × Nat) := do
  let rest ← behind? "://" text
  let user := rest.takeWhile isUserChar
  match rest.dropWhile isUserChar with
  | ':' :: more =>
      let value := more.takeWhile isSecretChar
      if user ≠ [] ∧ value ≠ [] ∧ (more.dropWhile isSecretChar).head? = some '@' then
        some (text.take (4 + user.length) ++ "***@".toList, 5 + user.length + value.length)
      else none
  | _ => none

/-- `password|passwd|secret|token|api[_-]?key|authorization` -/
def secretNames : List String :=
  ["password", "passwd", "secret", "token", "api_key", "api-key", "apikey", "authorization"]

/-- `(?i)\b(password|passwd|secret|token|api[_-]?key|authorization)(\s*[=:]\s*)(\S+)` -/
def assignedSecretMatch : Option (List Char × Nat) :=
  if prev.any w.isWord then none
  else secretNames.findSome? fun name => do
    let rest ← ((Regex.word name).rest text).head?
    let blanks := rest.takeWhile isSpace
    match rest.dropWhile isSpace with
    | c :: more =>
        let blanks' := more.takeWhile isSpace
        let value := (more.dropWhile isSpace).takeWhile isInk
        let kept := name.toList.length + blanks.length + 1 + blanks'.length
        if (c = '=' ∨ c = ':') ∧ value ≠ [] then
          some (text.take kept ++ "***".toList, kept + value.length)
        else none
    | [] => none

/-- `(?i)\bbearer\s+\S+` -/
def bearerMatch : Option (List Char × Nat) :=
  if prev.any w.isWord then none
  else do
    let rest ← ((Regex.word "bearer").rest text).head?
    let blanks := rest.takeWhile isSpace
    let value := (rest.dropWhile isSpace).takeWhile isInk
    if blanks ≠ [] ∧ value ≠ [] then
      some ("Bearer ***".toList, 6 + blanks.length + value.length)
    else none

end Patterns

theorem drop_takeWhile_length {α : Type} (p : α → Bool) (xs : List α) :
    xs.drop (xs.takeWhile p).length = xs.dropWhile p := by
  induction xs with
  | nil => rfl
  | cons x xs ih => cases kept : p x <;> simp [kept, ih]

theorem takeWhile_eq_nil {α : Type} {p : α → Bool} {xs : List α} :
    xs.takeWhile p = [] ↔ xs.head?.any p = false := by
  cases xs with
  | nil => simp
  | cons x xs => cases kept : p x <;> simp [kept]

/-! How the text is divided by a match. -/

theorem behind?_eq_some {literal : String} {text rest : List Char} :
    behind? literal text = some rest ↔ text = literal.toList ++ rest := by
  rw [behind?]
  constructor
  · intro h
    split at h
    · rename_i spelled
      obtain ⟨more, rfl⟩ := spelled
      rw [List.drop_left] at h
      rw [Option.some.inj h]
    · cases h
  · rintro rfl
    rw [if_pos (List.prefix_append _ _), List.drop_left]

theorem word_eq_some {name : String} {text rest : List Char} :
    ((Regex.word name).rest text).head? = some rest ↔
      ∃ head, text = head ++ rest ∧ head.map Regex.foldCase = Regex.folded name := by
  constructor
  · intro h
    rw [Regex.rest_word] at h
    split at h
    · rename_i spelled
      refine ⟨text.take name.toList.length, ?_, ?_⟩
      · rw [← Option.some.inj h, List.take_append_drop]
      · rw [List.map_take, List.prefix_iff_eq_take.mp spelled, Regex.folded, List.length_map]
    · cases h
  · rintro ⟨head, rfl, spelled⟩
    rw [Regex.rest_word_append spelled, List.head?_cons]

theorem all_takeWhile {α : Type} (p : α → Bool) (xs : List α) : (xs.takeWhile p).all p = true :=
  List.all_eq_true.mpr fun _ mem => List.mem_takeWhile_imp mem

theorem head?_dropWhile {α : Type} (p : α → Bool) (xs : List α) :
    (xs.dropWhile p).head?.any p = false := by
  have head := List.head?_dropWhile_not p xs
  cases eq : (xs.dropWhile p).head? with
  | none => rfl
  | some x => simpa [eq] using head

section Spelled
variable {w : WordChars} {prev : Option Char} {text put : List Char} {n : Nat}

theorem apiKeyMatch_eq_some (h : apiKeyMatch w prev text = some (put, n)) :
    prev.any w.isWord = false ∧ put = "em_***".toList ∧
      ∃ head ∈ ["em_live_".toList, "em_test_".toList], ∃ run rest, text = head ++ run ++ rest ∧
        run ≠ [] ∧ run.all Char.isAlphanum = true ∧ rest.head?.any Char.isAlphanum = false ∧
        n = 8 + run.length := by
  unfold apiKeyMatch at h
  split at h
  case isTrue => cases h
  rename_i boundary
  obtain ⟨rest, found, h⟩ := Option.bind_eq_some_iff.mp h
  dsimp only at h
  split at h
  case isTrue => cases h
  rename_i nonempty
  obtain ⟨rfl, rfl⟩ := Prod.mk.inj (Option.some.inj h)
  obtain ⟨head, mem, whole⟩ :
    ∃ head ∈ ["em_live_".toList, "em_test_".toList], text = head ++ rest := by
    rcases Option.or_eq_some_iff.mp found with found | ⟨-, found⟩
    · exact ⟨_, List.mem_cons_self, behind?_eq_some.mp found⟩
    · exact ⟨_, List.mem_cons_of_mem _ List.mem_cons_self, behind?_eq_some.mp found⟩
  refine ⟨Bool.eq_false_iff.mpr boundary, rfl, head, mem, _, rest.dropWhile Char.isAlphanum, ?_,
    nonempty, all_takeWhile _ _, head?_dropWhile _ _, rfl⟩
  rw [whole, List.append_assoc, List.takeWhile_append_dropWhile]

theorem mxrouteKeyEnd_spec (h : mxrouteKeyEnd w text = true) :
    ∃ d rest, text = 'K' :: d :: rest ∧ (digit? d).isSome = true ∧
      rest.head?.any w.isWord = false := by
  simp only [mxrouteKeyEnd, Bool.and_eq_true, decide_eq_true_eq, Bool.not_eq_true'] at h
  obtain ⟨⟨first, second⟩, third⟩ := h
  obtain ⟨more, rfl⟩ := List.head?_eq_some_iff.mp first
  cases more with
  | nil => cases second
  | cons d rest => exact ⟨d, rest, rfl, second, third⟩

theorem mxrouteKeyMatch_eq_some (h : mxrouteKeyMatch w prev text = some (put, n)) :
    prev.any w.isWord = false ∧ put = "Mx***".toList ∧
      ∃ run d rest, text = "Mx".toList ++ run ++ 'K' :: d :: rest ∧ 28 ≤ run.length ∧
        run.all isHexDigit = true ∧ (digit? d).isSome = true ∧ rest.head?.any w.isWord = false ∧
        n = 4 + run.length := by
  unfold mxrouteKeyMatch at h
  split at h
  case isTrue => cases h
  rename_i boundary
  obtain ⟨rest, found, h⟩ := Option.bind_eq_some_iff.mp h
  dsimp only at h
  split at h
  case isFalse => cases h
  rename_i valid
  obtain ⟨rfl, rfl⟩ := Prod.mk.inj (Option.some.inj h)
  obtain ⟨d, more, ends, digit, other⟩ := mxrouteKeyEnd_spec valid.2
  refine ⟨Bool.eq_false_iff.mpr boundary, rfl, _, d, more, ?_, valid.1, all_takeWhile _ _, digit,
    other, rfl⟩
  rw [behind?_eq_some.mp found, List.append_assoc, ← ends, List.takeWhile_append_dropWhile]

theorem fernetKeyMatch_eq_some (h : fernetKeyMatch prev text = some (put, n)) :
    prev.any isUrlSafe = false ∧ put = "***key***".toList ∧
      ∃ run rest, text = run ++ '=' :: rest ∧ run.length = 43 ∧ run.all isUrlSafe = true ∧
        (rest.head?.any fun c => isUrlSafe c || c = '=') = false ∧ n = 44 := by
  unfold fernetKeyMatch at h
  split at h
  case isTrue => cases h
  rename_i boundary
  split at h
  case h_2 => cases h
  rename_i more ends
  split at h
  case isFalse => cases h
  rename_i valid
  obtain ⟨rfl, rfl⟩ := Prod.mk.inj (Option.some.inj h)
  have long : 43 < text.length := by
    have := congrArg List.length ends
    simp only [List.length_drop, List.length_cons] at this
    omega
  refine ⟨Bool.eq_false_iff.mpr boundary, rfl, text.take 43, more, ?_,
    List.length_take_of_le (Nat.le_of_lt long), valid.1, valid.2, rfl⟩
  rw [← ends, List.take_append_drop]

theorem dsnPasswordMatch_eq_some (h : dsnPasswordMatch text = some (put, n)) :
    ∃ user value rest, text = "://".toList ++ user ++ ':' :: (value ++ '@' :: rest) ∧
      user ≠ [] ∧ user.all isUserChar = true ∧ value ≠ [] ∧ value.all isSecretChar = true ∧
      put = "://".toList ++ user ++ ":***@".toList ∧ n = 5 + user.length + value.length := by
  unfold dsnPasswordMatch at h
  obtain ⟨rest, found, h⟩ := Option.bind_eq_some_iff.mp h
  dsimp only at h
  split at h
  case h_2 => cases h
  rename_i more ends
  split at h
  case isFalse => cases h
  rename_i valid
  obtain ⟨rfl, rfl⟩ := Prod.mk.inj (Option.some.inj h)
  obtain ⟨after, closes⟩ := List.head?_eq_some_iff.mp valid.2.2
  have whole : text = "://".toList ++ rest.takeWhile isUserChar ++
      ':' :: (more.takeWhile isSecretChar ++ '@' :: after) := by
    rw [behind?_eq_some.mp found, ← closes, List.takeWhile_append_dropWhile, ← ends,
      List.append_assoc, List.takeWhile_append_dropWhile]
  refine ⟨_, _, after, whole, valid.1, all_takeWhile _ _, valid.2.1, all_takeWhile _ _, ?_, rfl⟩
  have length : ("://".toList ++ rest.takeWhile isUserChar ++ [':']).length =
      4 + (rest.takeWhile isUserChar).length := by
    simp only [List.length_append, List.length_singleton]
    have : "://".toList.length = 3 := rfl
    omega
  rw [whole, List.append_cons, List.take_left' length]
  simp

theorem assignedSecretMatch_eq_some (h : assignedSecretMatch w prev text = some (put, n)) :
    prev.any w.isWord = false ∧ ∃ name ∈ secretNames, ∃ head blanks c blanks' value rest,
      text = head ++ blanks ++ c :: (blanks' ++ value ++ rest) ∧
      head.map Regex.foldCase = Regex.folded name ∧ blanks.all isSpace = true ∧
      (c = '=' ∨ c = ':') ∧ blanks'.all isSpace = true ∧ value ≠ [] ∧ value.all isInk = true ∧
      rest.head?.any isInk = false ∧ put = head ++ blanks ++ c :: (blanks' ++ "***".toList) ∧
      n = head.length + blanks.length + 1 + blanks'.length + value.length := by
  unfold assignedSecretMatch at h
  split at h
  case isTrue => cases h
  rename_i boundary
  obtain ⟨name, mem, h⟩ := List.exists_of_findSome?_eq_some h
  obtain ⟨rest, found, h⟩ := Option.bind_eq_some_iff.mp h
  dsimp only at h
  split at h
  case h_2 => cases h
  rename_i c more ends
  split at h
  case isFalse => cases h
  rename_i valid
  obtain ⟨rfl, rfl⟩ := Prod.mk.inj (Option.some.inj h)
  obtain ⟨head, whole, spelled⟩ := word_eq_some.mp found
  have length : name.toList.length = head.length := by
    simpa [Regex.folded] using (congrArg List.length spelled).symm
  have kept : text = head ++ rest.takeWhile isSpace ++ c :: more.takeWhile isSpace ++
      more.dropWhile isSpace := by
    rw [List.append_assoc, List.cons_append, List.takeWhile_append_dropWhile, ← ends,
      List.append_assoc, List.takeWhile_append_dropWhile, whole]
  refine ⟨Bool.eq_false_iff.mpr boundary, name, mem, head, _, c, _, _,
    (more.dropWhile isSpace).dropWhile isInk, ?_, spelled, all_takeWhile _ _, valid.1,
    all_takeWhile _ _, valid.2, all_takeWhile _ _, head?_dropWhile _ _, ?_, by rw [length]⟩
  · rw [List.append_assoc _ _ (List.dropWhile isInk _), List.takeWhile_append_dropWhile, kept]
    simp
  · have through : (head ++ rest.takeWhile isSpace ++ c :: more.takeWhile isSpace).length =
        name.toList.length + (rest.takeWhile isSpace).length + 1 +
          (more.takeWhile isSpace).length := by
      simp only [List.length_append, List.length_cons]
      omega
    rw [kept, List.take_left' through]
    simp

theorem bearerMatch_eq_some (h : bearerMatch w prev text = some (put, n)) :
    prev.any w.isWord = false ∧ put = "Bearer ***".toList ∧ ∃ head blanks value rest,
      text = head ++ blanks ++ value ++ rest ∧ head.map Regex.foldCase = Regex.folded "bearer" ∧
      blanks ≠ [] ∧ blanks.all isSpace = true ∧ value ≠ [] ∧ value.all isInk = true ∧
      rest.head?.any isInk = false ∧ n = 6 + blanks.length + value.length := by
  unfold bearerMatch at h
  split at h
  case isTrue => cases h
  rename_i boundary
  obtain ⟨rest, found, h⟩ := Option.bind_eq_some_iff.mp h
  dsimp only at h
  split at h
  case isFalse => cases h
  rename_i valid
  obtain ⟨rfl, rfl⟩ := Prod.mk.inj (Option.some.inj h)
  obtain ⟨head, whole, spelled⟩ := word_eq_some.mp found
  refine ⟨Bool.eq_false_iff.mpr boundary, rfl, head, _, _, (rest.dropWhile isSpace).dropWhile isInk,
    ?_, spelled, valid.1, all_takeWhile _ _, valid.2, all_takeWhile _ _, head?_dropWhile _ _, rfl⟩
  rw [List.append_assoc, List.append_assoc, List.takeWhile_append_dropWhile,
    List.takeWhile_append_dropWhile, whole]

/-! A match is part of the text. -/

theorem apiKeyMatch_fits (h : apiKeyMatch w prev text = some (put, n)) :
    0 < n ∧ n ≤ text.length := by
  obtain ⟨-, -, head, mem, run, rest, rfl, -, -, -, rfl⟩ := apiKeyMatch_eq_some h
  have length : ∀ head ∈ ["em_live_".toList, "em_test_".toList], head.length = 8 := by decide
  have eight := length head mem
  simp only [List.length_append]
  omega

theorem mxrouteKeyMatch_fits (h : mxrouteKeyMatch w prev text = some (put, n)) :
    0 < n ∧ n ≤ text.length := by
  obtain ⟨-, -, run, d, rest, rfl, -, -, -, -, rfl⟩ := mxrouteKeyMatch_eq_some h
  have two : "Mx".toList.length = 2 := rfl
  simp only [List.length_append, List.length_cons]
  omega

theorem fernetKeyMatch_fits (h : fernetKeyMatch prev text = some (put, n)) :
    0 < n ∧ n ≤ text.length := by
  obtain ⟨-, -, run, rest, rfl, long, -, -, rfl⟩ := fernetKeyMatch_eq_some h
  simp only [List.length_append, List.length_cons]
  omega

theorem dsnPasswordMatch_fits (h : dsnPasswordMatch text = some (put, n)) :
    0 < n ∧ n ≤ text.length := by
  obtain ⟨user, value, rest, rfl, -, -, -, -, -, rfl⟩ := dsnPasswordMatch_eq_some h
  have three : "://".toList.length = 3 := rfl
  simp only [List.length_append, List.length_cons]
  omega

theorem assignedSecretMatch_fits (h : assignedSecretMatch w prev text = some (put, n)) :
    0 < n ∧ n ≤ text.length := by
  obtain ⟨-, name, -, head, blanks, c, blanks', value, rest, rfl, -, -, -, -, -, -, -, -, rfl⟩ :=
    assignedSecretMatch_eq_some h
  simp only [List.length_append, List.length_cons]
  omega

theorem bearerMatch_fits (h : bearerMatch w prev text = some (put, n)) :
    0 < n ∧ n ≤ text.length := by
  obtain ⟨-, -, head, blanks, value, rest, rfl, spelled, -, -, -, -, -, rfl⟩ :=
    bearerMatch_eq_some h
  have six : head.length = 6 := by simpa [Regex.folded] using congrArg List.length spelled
  simp only [List.length_append]
  omega

end Spelled

section Redactions
variable (w : WordChars)

def apiKeys : Pattern := ⟨apiKeyMatch w, apiKeyMatch_fits⟩

def mxrouteKeys : Pattern := ⟨mxrouteKeyMatch w, mxrouteKeyMatch_fits⟩

def fernetKeys : Pattern := ⟨fernetKeyMatch, fernetKeyMatch_fits⟩

def dsnPasswords : Pattern := ⟨fun _ => dsnPasswordMatch, dsnPasswordMatch_fits⟩

def assignedSecrets : Pattern := ⟨assignedSecretMatch w, assignedSecretMatch_fits⟩

def bearerTokens : Pattern := ⟨bearerMatch w, bearerMatch_fits⟩

/-- `_REDACTIONS` -/
def redactions : List Pattern :=
  [apiKeys w, mxrouteKeys w, fernetKeys, dsnPasswords, assignedSecrets w, bearerTokens w]

/-- `redact` -/
def redact (text : String) : String :=
  .ofList ((redactions w).foldl (fun text p => p.sub text) text.toList)

end Redactions
end Emaild
