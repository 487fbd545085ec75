import Emaild.Jobs
import Emaild.Text.Fields
import Emaild.Text.Language

/-!
The names that jobs may be about. What the pattern takes is a domain name, or a domain name
with a line break behind it; the line break is left over where full stops stand behind it.
-/
namespace Emaild
open Text

/-- A letter, a digit or a hyphen, in the case that names are kept in. -/
def NameChar (c : Char) : Prop := ('a' ≤ c ∧ c ≤ 'z') ∨ ('0' ≤ c ∧ c ≤ '9') ∨ c = '-'

instance (c : Char) : Decidable (NameChar c) := inferInstanceAs (Decidable (_ ∨ _))

/-- One label of a domain name. -/
structure NameLabel (label : List Char) : Prop where
  length : 1 ≤ label.length ∧ label.length ≤ 63
  chars : ∀ c ∈ label, NameChar c
  first : label.head? ≠ some '-'
  last : label.getLast? ≠ some '-'

/-- A name of at least two labels, the last of which has at least two letters and nothing
else. -/
structure DomainName (name : String) : Prop where
  length : 1 ≤ name.length ∧ name.length ≤ 253
  labels : ∀ label ∈ name.toList.splitOn '.', NameLabel label
  several : 2 ≤ (name.toList.splitOn '.').length
  top : ∃ label, (name.toList.splitOn '.').getLast? = some label ∧ 2 ≤ label.length ∧
    ∀ c ∈ label, 'a' ≤ c ∧ c ≤ 'z'

section Pattern
variable {label w : List Char} {c : Char}

theorem alphanumeric_iff :
    (('a' ≤ c && c ≤ 'z') || ('0' ≤ c && c ≤ '9')) = true ↔ NameChar c ∧ c ≠ '-' := by
  simp only [Bool.or_eq_true, Bool.and_eq_true, decide_eq_true_eq, NameChar]
  constructor
  · rintro (letter | digit)
    · exact ⟨.inl letter, fun same => by subst same; exact absurd letter.1 (by decide)⟩
    · exact ⟨.inr (.inl digit), fun same => by subst same; exact absurd digit.1 (by decide)⟩
  · rintro ⟨letter | digit | hyphen, other⟩
    · exact .inl letter
    · exact .inr digit
    · exact absurd hyphen other

theorem inner_iff :
    (('a' ≤ c && c ≤ 'z') || ('0' ≤ c && c ≤ '9') || c = '-') = true ↔ NameChar c := by
  simp [NameChar, or_assoc]

theorem mem_alphanumeric : w ∈ alphanumeric.language ↔ ∃ c, NameChar c ∧ c ≠ '-' ∧ w = [c] := by
  constructor
  · rintro ⟨c, passes, rfl⟩
    obtain ⟨char, other⟩ := alphanumeric_iff.mp passes
    exact ⟨c, char, other, rfl⟩
  · rintro ⟨c, char, other, rfl⟩
    exact ⟨c, alphanumeric_iff.mpr ⟨char, other⟩, rfl⟩

theorem NameChar.ne_stop (char : NameChar c) : c ≠ '.' := by
  rintro rfl
  rcases char with h | h | h
  · exact absurd h.1 (by decide)
  · exact absurd h.1 (by decide)
  · exact absurd h (by decide)

theorem NameLabel.no_stop (name : NameLabel label) : '.' ∉ label := fun mem =>
  (name.chars '.' mem).ne_stop rfl

theorem mem_domainLabel :
    w ∈ domainLabel.language ↔ ∃ label, NameLabel label ∧ w = label ++ ['.'] := by
  constructor
  · rintro ⟨_, first, _, ⟨more, inner, _, ⟨stop, isStop, rfl⟩, rfl⟩, rfl⟩
    obtain rfl := of_decide_eq_true isStop
    obtain ⟨a, chara, notHyphen, rfl⟩ := mem_alphanumeric.mp first
    rcases Regex.mem_optional.mp inner with ⟨middle, within, _, final, rfl⟩ | rfl
    · obtain ⟨z, charz, notHyphen', rfl⟩ := mem_alphanumeric.mp final
      obtain ⟨short, all⟩ := Regex.mem_upTo_set.mp within
      refine ⟨a :: (middle ++ [z]), { length := ?_, chars := ?_, first := ?_, last := ?_ }, by simp⟩
      · simp only [List.length_cons, List.length_append, List.length_nil]
        omega
      · intro c mem
        simp only [List.mem_cons, List.mem_append, List.not_mem_nil, or_false] at mem
        rcases mem with rfl | mem | rfl
        · exact chara
        · exact inner_iff.mp (all c mem)
        · exact charz
      · simpa using notHyphen
      · rw [← List.cons_append, List.getLast?_concat]
        simpa using notHyphen'
    · exact ⟨[a], {
        length := by simp
        chars := fun c mem => List.mem_singleton.mp mem ▸ chara
        first := by simpa using notHyphen
        last := by simpa using notHyphen }, rfl⟩
  · rintro ⟨label, name, rfl⟩
    obtain ⟨a, rest, rfl⟩ := List.exists_cons_of_length_pos name.length.1
    have chara : [a] ∈ alphanumeric.language := mem_alphanumeric.mpr
      ⟨a, name.chars a List.mem_cons_self, by simpa using name.first, rfl⟩
    refine ⟨[a], chara, rest ++ ['.'], ⟨rest, ?_, ['.'], ⟨'.', by decide, rfl⟩, rfl⟩, rfl⟩
    rcases List.eq_nil_or_concat' rest with rfl | ⟨middle, z, rfl⟩
    · exact .inr rfl
    · have last := name.last
      rw [← List.cons_append, List.getLast?_concat] at last
      have charz : [z] ∈ alphanumeric.language := mem_alphanumeric.mpr
        ⟨z, name.chars z (by simp), by simpa using last, rfl⟩
      refine .inl ⟨middle, Regex.mem_upTo_set.mpr ⟨?_, fun c mem => ?_⟩, [z], charz, rfl⟩
      · have := name.length.2
        simp only [List.length_cons, List.length_append, List.length_nil] at this
        omega
      · exact inner_iff.mpr (name.chars c (by simp [mem]))

/-- A stop after each label but the last. -/
theorem flatten_stops (labels : List (List Char)) (top : List Char) :
    (labels.map (· ++ ['.'])).flatten ++ top = ['.'].intercalate (labels ++ [top]) := by
  have all : ((labels ++ [top]).map (· ++ ['.'])).flatten =
      ['.'].intercalate (labels ++ [top]) ++ ['.'] := flatten_separated (by simp)
  rw [List.map_append, List.flatten_append] at all
  refine List.append_cancel_right (Eq.trans ?_ all)
  simp

/-- A label that may stand last. -/
structure TopLabel (label : List Char) : Prop where
  length : 2 ≤ label.length ∧ label.length ≤ 63
  letters : ∀ c ∈ label, 'a' ≤ c ∧ c ≤ 'z'

theorem TopLabel.nameLabel (top : TopLabel label) : NameLabel label := by
  have other : ∀ c ∈ label, c ≠ '-' := by
    rintro c mem rfl
    exact absurd (top.letters _ mem).1 (by decide)
  exact {
    length := ⟨Nat.le_trans (by decide) top.length.1, top.length.2⟩
    chars := fun c mem => .inl (top.letters c mem)
    first := fun h => other _ (List.mem_of_head? h) rfl
    last := fun h => other _ (List.mem_of_getLast? h) rfl }

def topLetter : Regex := .set fun c => 'a' ≤ c && c ≤ 'z'

/-- `[a-z]{2,63}` -/
def topPattern : Regex := .seq topLetter (.seq topLetter (.upTo 61 topLetter))

theorem mem_topPattern : w ∈ topPattern.language ↔ TopLabel w := by
  have letter_iff : ∀ c : Char, ('a' ≤ c && c ≤ 'z') = true ↔ 'a' ≤ c ∧ c ≤ 'z' := fun c => by simp
  constructor
  · rintro ⟨_, ⟨a, ha, rfl⟩, _, ⟨_, ⟨b, hb, rfl⟩, rest, mem, rfl⟩, rfl⟩
    obtain ⟨short, all⟩ := Regex.mem_upTo_set.mp mem
    refine { length := ⟨by simp, ?_⟩, letters := fun c mem => (letter_iff c).mp ?_ }
    · simp only [List.length_append, List.length_cons, List.length_nil]
      omega
    · simp only [List.cons_append, List.nil_append, List.mem_cons] at mem
      rcases mem with rfl | rfl | mem
      · exact ha
      · exact hb
      · exact all c mem
  · rintro ⟨⟨long, short⟩, letters⟩
    match w, long with
    | a :: b :: rest, _ =>
        simp only [List.forall_mem_cons, ← letter_iff] at letters
        obtain ⟨ha, hb, all⟩ := letters
        refine ⟨[a], ⟨a, ha, rfl⟩, b :: rest, ⟨[b], ⟨b, hb, rfl⟩, rest, ?_, rfl⟩, rfl⟩
        exact Regex.mem_upTo_set.mpr
          ⟨Nat.le_of_succ_le_succ (Nat.le_of_succ_le_succ short), all⟩

/-- The words of the pattern are labels and a top label, with stops between them. -/
theorem mem_labels :
    w ∈ (Regex.seq (.plus domainLabel) topPattern).language ↔
      ∃ labels top, labels ≠ [] ∧ (∀ label ∈ labels, NameLabel label) ∧ TopLabel top ∧
        w = ['.'].intercalate (labels ++ [top]) := by
  constructor
  · rintro ⟨_, front, top, back, rfl⟩
    obtain ⟨parts, nonempty, all, rfl⟩ := Regex.mem_plus.mp front
    have each : ∀ part ∈ parts, NameLabel part.dropLast ∧ part.dropLast ++ ['.'] = part := by
      intro part mem
      obtain ⟨label, name, rfl⟩ := mem_domainLabel.mp (all part mem)
      rw [List.dropLast_concat]
      exact ⟨name, rfl⟩
    refine ⟨parts.map List.dropLast, top, by simpa using nonempty, ?_, mem_topPattern.mp back, ?_⟩
    · intro label mem
      obtain ⟨part, there, rfl⟩ := List.mem_map.mp mem
      exact (each part there).1
    · rw [← flatten_stops, List.map_map]
      have same : parts.map ((· ++ ['.']) ∘ List.dropLast) = parts :=
        (List.map_congr_left fun part there => (each part there).2).trans (List.map_id parts)
      rw [same]
  · rintro ⟨labels, top, nonempty, all, last, rfl⟩
    refine ⟨(labels.map (· ++ ['.'])).flatten, ?_, top, mem_topPattern.mpr last,
      flatten_stops labels top⟩
    refine Regex.mem_plus.mpr ⟨labels.map (· ++ ['.']), by simpa using nonempty, ?_, rfl⟩
    intro part mem
    obtain ⟨label, there, rfl⟩ := List.mem_map.mp mem
    exact mem_domainLabel.mpr ⟨label, all label there, rfl⟩

/-- `.` -/
def anyChar : Regex := .set fun c => c ≠ '\n'

theorem mem_line : w ∈ (Regex.seq anyChar (.upTo 252 anyChar)).language ↔
    (1 ≤ w.length ∧ w.length ≤ 253) ∧ '\n' ∉ w := by
  have other_iff : ∀ c : Char, decide (c ≠ '\n') = true ↔ '\n' ≠ c := fun c =>
    decide_eq_true_iff.trans ne_comm
  constructor
  · rintro ⟨_, ⟨a, other, rfl⟩, rest, mem, rfl⟩
    obtain ⟨short, all⟩ := Regex.mem_upTo_set.mp mem
    refine ⟨⟨Nat.succ_pos _, Nat.succ_le_succ short⟩, fun there => ?_⟩
    cases there with
    | head => exact absurd other (by decide)
    | tail _ there => exact (other_iff _).mp (all _ there) rfl
  · rintro ⟨⟨long, short⟩, unbroken⟩
    obtain ⟨a, rest, rfl⟩ := List.exists_cons_of_length_pos long
    obtain ⟨other, unbroken⟩ := not_or.mp (mt List.mem_cons.mpr unbroken)
    refine ⟨[a], ⟨a, (other_iff a).mpr other, rfl⟩, rest, ?_, rfl⟩
    refine Regex.mem_upTo_set.mpr ⟨Nat.le_of_succ_le_succ short, fun c mem => (other_iff c).mpr ?_⟩
    rintro rfl
    exact unbroken mem

/-- No other character stands between, before or behind the stops. -/
theorem chars_of_labels {labels : List (List Char)} {top : List Char}
    (all : ∀ label ∈ labels, NameLabel label) (last : TopLabel top) :
    ∀ c ∈ ['.'].intercalate (labels ++ [top]), c = '.' ∨ NameChar c := by
  intro c mem
  rw [← flatten_stops] at mem
  rcases List.mem_append.mp mem with mem | mem
  · obtain ⟨part, stopped, mem⟩ := List.mem_flatten.mp mem
    obtain ⟨label, there, rfl⟩ := List.mem_map.mp stopped
    rcases List.mem_append.mp mem with mem | mem
    · exact .inr ((all label there).chars c mem)
    · exact .inl (List.mem_singleton.mp mem)
  · exact .inr (last.nameLabel.chars c mem)

theorem NameChar.not_space (char : NameChar c) : isSpace c = false := by
  have range : (97 ≤ c.toNat ∧ c.toNat ≤ 122) ∨ (48 ≤ c.toNat ∧ c.toNat ≤ 57) ∨ c.toNat = 45 := by
    rcases char with ⟨low, high⟩ | ⟨low, high⟩ | rfl
    · exact .inl ⟨UInt32.le_iff_toNat_le.mp low, UInt32.le_iff_toNat_le.mp high⟩
    · exact .inr (.inl ⟨UInt32.le_iff_toNat_le.mp low, UInt32.le_iff_toNat_le.mp high⟩)
    · exact .inr (.inr rfl)
  simp only [isSpace, Bool.or_eq_false_iff, Bool.and_eq_false_iff, decide_eq_false_iff_not,
    beq_eq_false_iff_ne]
  omega

theorem no_break_of_chars (chars : ∀ c ∈ w, c = '.' ∨ NameChar c) : '\n' ∉ w := fun mem =>
  (chars _ mem).elim (by decide) fun char => absurd char.not_space (by decide)

end Pattern

section Names
variable {name : String}

theorem domainName_iff : DomainName name ↔ name.length ≤ 253 ∧
    ∃ labels top, labels ≠ [] ∧ (∀ label ∈ labels, NameLabel label) ∧ TopLabel top ∧
      name.toList = ['.'].intercalate (labels ++ [top]) := by
  constructor
  · rintro ⟨⟨_, short⟩, all, several, top, last, long, letters⟩
    have front := List.dropLast_append_getLast? top last
    refine ⟨short, (name.toList.splitOn '.').dropLast, top, ?_, ?_, ?_, ?_⟩
    · intro unlabelled
      rw [← front, unlabelled] at several
      exact absurd several (by simp)
    · exact fun label mem => all label (List.dropLast_subset _ mem)
    · exact ⟨⟨long, (all top (List.mem_of_getLast? last)).length.2⟩, letters⟩
    · rw [front, List.intercalate_splitOn]
  · rintro ⟨short, labels, top, nonempty, all, last, spelled⟩
    have each : ∀ label ∈ labels ++ [top], NameLabel label := by
      intro label mem
      rcases List.mem_append.mp mem with mem | mem
      · exact all label mem
      · exact List.mem_singleton.mp mem ▸ last.nameLabel
    have parts : name.toList.splitOn '.' = labels ++ [top] := by
      rw [spelled]
      exact List.splitOn_intercalate '.' (fun label mem => (each label mem).no_stop) (by simp)
    refine { length := ⟨?_, short⟩, labels := parts ▸ each, several := ?_, top := ?_ }
    · refine Nat.pos_of_ne_zero fun empty => ?_
      rw [String.length_eq_zero_iff.mp empty] at parts
      have counted := congrArg List.length parts
      have := List.length_pos_iff.mpr nonempty
      simp only [List.length_append, List.length_singleton] at counted
      have one : ("".toList.splitOn '.').length = 1 := by decide
      omega
    · have := List.length_pos_iff.mpr nonempty
      rw [parts, List.length_append, List.length_singleton]
      omega
    · exact ⟨top, by rw [parts, List.getLast?_concat], last.length.1, last.letters⟩

theorem DomainName.chars (h : DomainName name) : ∀ c ∈ name.toList, c = '.' ∨ NameChar c := by
  obtain ⟨_, labels, top, _, all, last, spelled⟩ := domainName_iff.mp h
  rw [spelled]
  exact chars_of_labels all last

/-- A domain name ends in a letter. -/
theorem DomainName.ends (h : DomainName name) :
    ∃ front c, name.toList = front ++ [c] ∧ 'a' ≤ c ∧ c ≤ 'z' := by
  obtain ⟨_, labels, top, _, _, last, spelled⟩ := domainName_iff.mp h
  rw [← flatten_stops] at spelled
  rcases List.eq_nil_or_concat' top with rfl | ⟨front, c, rfl⟩
  · exact absurd last.length.1 (by decide)
  · exact ⟨_, c, spelled.trans (List.append_assoc ..).symm, last.letters c (by simp)⟩

/-- What `_DOMAIN_RE` takes: a domain name, or one in front of a line break. -/
theorem domainRe_iff :
    domainRe name = true ↔ ∃ w, DomainName w ∧ (name = w ∨ name = w ++ "\n") := by
  have spelled : domainRe name = true ↔
      (∃ v ∈ (Regex.seq anyChar (.upTo 252 anyChar)).language,
        name.toList = v ∨ name.toList = v ++ ['\n']) ∧
      ∃ w ∈ (Regex.seq (.plus domainLabel) topPattern).language,
        name.toList = w ∨ name.toList = w ++ ['\n'] := by
    rw [← Regex.matchesLine_iff, ← Regex.matchesLine_iff, ← Bool.and_eq_true]
    exact Iff.rfl
  rw [spelled]
  constructor
  · rintro ⟨⟨v, line, hv⟩, w, mem, hw⟩
    obtain ⟨⟨_, short⟩, whole⟩ := mem_line.mp line
    obtain ⟨labels, top, nonempty, all, last, rfl⟩ := mem_labels.mp mem
    have unbroken := no_break_of_chars (chars_of_labels all last)
    have same : v = ['.'].intercalate (labels ++ [top]) := by
      rcases hv with hv | hv <;> rcases hw with hw | hw <;> rw [hv] at hw
      · exact hw
      · exact absurd (hw ▸ List.mem_append_right _ List.mem_cons_self) whole
      · exact absurd (hw ▸ List.mem_append_right _ List.mem_cons_self) unbroken
      · exact List.append_cancel_right hw
    refine ⟨.ofList (['.'].intercalate (labels ++ [top])), domainName_iff.mpr ⟨?_, labels, top,
      nonempty, all, last, String.toList_ofList⟩, ?_⟩
    · rwa [← String.length_toList, String.toList_ofList, ← same]
    · refine hw.imp (fun h => String.ext ?_) fun h => String.ext ?_
      · rw [h, String.toList_ofList]
      · rw [h, String.toList_append, String.toList_ofList]
        rfl
  · rintro ⟨w, h, same⟩
    obtain ⟨short, labels, top, nonempty, all, last, parts⟩ := domainName_iff.mp h
    have lines : name.toList = w.toList ∨ name.toList = w.toList ++ ['\n'] := by
      rcases same with rfl | rfl
      · exact .inl rfl
      · exact .inr String.toList_append
    refine ⟨⟨w.toList, mem_line.mpr ⟨h.length, no_break_of_chars h.chars⟩, lines⟩,
      w.toList, mem_labels.mpr ⟨labels, top, nonempty, all, last, parts⟩, lines⟩

theorem chars_of_domainRe (taken : domainRe name = true) :
    ∀ c ∈ name.toList, c = '.' ∨ NameChar c ∨ c = '\n' := by
  obtain ⟨w, h, same⟩ := domainRe_iff.mp taken
  intro c mem
  have known : c ∈ w.toList ∨ c = '\n' := by
    rcases same with rfl | rfl
    · exact .inl mem
    · rw [String.toList_append] at mem
      exact (List.mem_append.mp mem).imp_right List.mem_singleton.mp
  rcases known with mem | rfl
  · exact (h.chars c mem).imp_right .inl
  · exact .inr (.inr rfl)

end Names

section Clean
variable {rt : Runtime} {raw name : String}

theorem cleanDomain_eq_ok : cleanDomain rt (.string raw) = .ok name ↔
    name = rstripChar '.' (rt.lower (strip raw)) ∧ domainRe name = true := by
  have read : asText ((Json.string raw).orElse (.string "")) = .ok raw := by
    by_cases empty : raw = ""
    · subst empty
      rfl
    · simp [Json.orElse, Json.truthy, empty, asText]
  simp only [cleanDomain, read, bind, Except.bind]
  generalize rstripChar '.' (rt.lower (strip raw)) = cleaned
  constructor
  · intro accepted
    split at accepted
    · cases accepted
    · split at accepted
      · cases accepted
      · split at accepted
        · cases accepted
        · split at accepted
          · cases accepted
          · rename_i taken
            cases accepted
            exact ⟨rfl, by simpa using taken⟩
  · rintro ⟨rfl, taken⟩
    have absent : ∀ c, ¬ (c = '.' ∨ NameChar c ∨ c = '\n') → c ∉ name.toList :=
      fun c other mem => other (chars_of_domainRe taken c mem)
    have nonempty : name ≠ "" := by
      rintro rfl
      exact absurd taken (by decide)
    have plain : (startsWith "http://" name || startsWith "https://" name) = false := by
      refine Bool.eq_false_iff.mpr fun scheme => absent ':' (by decide) ?_
      rcases Bool.or_eq_true_iff.mp scheme with scheme | scheme
      · exact (List.isPrefixOf_iff_prefix.mp scheme).subset (by decide)
      · exact (List.isPrefixOf_iff_prefix.mp scheme).subset (by decide)
    have noMailbox : name.toList.contains '@' = false := by
      simpa using absent '@' (by decide)
    simp only [nonempty, plain, noMailbox, taken, if_false, Bool.false_eq_true, Bool.not_true]
    rfl

/-- Letters, digits, hyphens and full stops in lower case stay as they are. -/
def LeavesNames (lower : String → String) : Prop :=
  ∀ s : String, (∀ c ∈ s.toList, c = '.' ∨ NameChar c) → lower s = s

theorem DomainName.strip (h : DomainName name) : Text.strip name = name := by
  have nonblank : ∀ c ∈ name.toList, isSpace c = false := fun c mem =>
    (h.chars c mem).elim (fun stop => stop ▸ by decide) NameChar.not_space
  have front : ∀ l : List Char, (∀ c ∈ l, c ∈ name.toList) → l.dropWhile isSpace = l := by
    intro l within
    cases l with
    | nil => rfl
    | cons c l =>
        exact List.dropWhile_cons_of_neg (by simp [nonblank c (within c List.mem_cons_self)])
  simp only [Text.strip, rstrip, String.toList_ofList]
  rw [front _ fun c mem => mem, front _ fun c mem => List.mem_reverse.mp mem, List.reverse_reverse,
    String.ofList_toList]

theorem DomainName.rstripChar (h : DomainName name) : Text.rstripChar '.' name = name := by
  obtain ⟨front, c, spelled, letter⟩ := h.ends
  have other : c ≠ '.' := by
    rintro rfl
    exact absurd letter.1 (by decide)
  rw [Text.rstripChar, spelled, List.reverse_concat,
    List.dropWhile_cons_of_neg (by simpa using other), ← List.reverse_concat, List.reverse_reverse,
    ← spelled, String.ofList_toList]

/-- A domain name is accepted as it is. -/
theorem DomainName.fixed (h : DomainName name) (lower : LeavesNames rt.lower) :
    cleanDomain rt (.string name) = .ok name := by
  refine cleanDomain_eq_ok.mpr ⟨?_, domainRe_iff.mpr ⟨name, h, .inl rfl⟩⟩
  rw [h.strip, lower name h.chars, h.rstripChar]

/-- Stripping removes copies of the character. -/
theorem rstripChar_rest (c : Char) (s : String) :
    ∃ n, s = Text.rstripChar c s ++ .ofList (List.replicate n c) := by
  refine ⟨(s.toList.reverse.takeWhile (· = c)).length, String.ext ?_⟩
  have copies : s.toList.reverse.takeWhile (· = c) =
      List.replicate (s.toList.reverse.takeWhile (· = c)).length c :=
    List.eq_replicate_iff.mpr ⟨rfl, fun d mem =>
      of_decide_eq_true (List.all_eq_true.mp List.all_takeWhile d mem)⟩
  rw [String.toList_append, Text.rstripChar, String.toList_ofList, String.toList_ofList,
    ← List.reverse_replicate, ← copies, ← List.reverse_append, List.takeWhile_append_dropWhile,
    List.reverse_reverse]

theorem rstripChar_break (w : String) (n : Nat) :
    Text.rstripChar '.' (w ++ "\n" ++ .ofList (List.replicate n '.')) = w ++ "\n" := by
  refine String.ext ?_
  have dots : ∀ c ∈ List.replicate n '.', decide (c = '.') = true := fun c mem =>
    decide_eq_true (List.eq_of_mem_replicate mem)
  simp only [Text.rstripChar, String.toList_append, String.toList_ofList, List.reverse_append,
    List.reverse_replicate]
  rw [List.dropWhile_append_of_pos dots]
  have ends : "\n".toList.reverse = ['\n'] := rfl
  rw [ends, List.singleton_append, List.dropWhile_cons_of_neg (by decide), List.reverse_cons,
    List.reverse_reverse]
  rfl

/-- Whatever is accepted is a domain name in its final form, exactly if what is left of the text
after stripping and lower-casing is not a domain name, a line break and then full stops only:
the pattern's end matches before a line break at the end, which is there once the full stops
are gone. -/
theorem cleanDomain_clean_iff (rt : Runtime) (lower : LeavesNames rt.lower) (raw : String) :
    (∀ name, cleanDomain rt (.string raw) = .ok name →
      DomainName name ∧ cleanDomain rt (.string name) = .ok name) ↔
    ¬ ∃ w n, DomainName w ∧
      rt.lower (strip raw) = w ++ "\n" ++ .ofList (List.replicate n '.') := by
  constructor
  · rintro clean ⟨w, n, h, left⟩
    have accepted : cleanDomain rt (.string raw) = .ok (w ++ "\n") :=
      cleanDomain_eq_ok.mpr ⟨by rw [left, rstripChar_break], domainRe_iff.mpr ⟨w, h, .inr rfl⟩⟩
    refine no_break_of_chars (clean _ accepted).1.chars ?_
    rw [String.toList_append]
    exact List.mem_append_right _ List.mem_cons_self
  · intro regular name accepted
    obtain ⟨cleaned, taken⟩ := cleanDomain_eq_ok.mp accepted
    obtain ⟨w, h, rfl | rfl⟩ := domainRe_iff.mp taken
    · exact ⟨h, h.fixed lower⟩
    · obtain ⟨n, left⟩ := rstripChar_rest '.' (rt.lower (strip raw))
      exact absurd ⟨w, n, h, cleaned ▸ left⟩ regular

end Clean

theorem spaces_and_stop_are_cleaned :
    DomainName "example.com" ∧
      cleanDomain Sample.runtime (.string "example.com") = .ok "example.com" := by
  refine (cleanDomain_clean_iff Sample.runtime (fun _ _ => rfl) " example.com. ").mpr ?_
    "example.com" (by decide +kernel)
  rintro ⟨w, n, _, same⟩
  have inside : '\n' ∈ (Sample.runtime.lower (strip " example.com. ")).toList := by
    rw [same, String.toList_append, String.toList_append]
    exact List.mem_append_left _ (List.mem_append_right _ List.mem_cons_self)
  exact absurd inside (by decide)

/-- A line break is kept where a full stop stands behind it. -/
theorem line_break_is_accepted : ¬ ∀ (rt : Runtime), LeavesNames rt.lower → ∀ raw name,
    cleanDomain rt (.string raw) = .ok name →
      DomainName name ∧ cleanDomain rt (.string name) = .ok name := by
  intro claim
  have clean := claim Sample.runtime (fun _ _ => rfl) "example.com\n." "example.com\n"
    (by decide +kernel)
  exact no_break_of_chars clean.1.chars (by decide)

end Emaild
