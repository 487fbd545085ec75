import Emaild.Dnscheck
import Emaild.Ingest
import Emaild.Text.Fields

/-!
What an SPF record that passes authorises. The check drops the blanks of a record and looks
for the provider's name; the record itself is a list of terms between blanks.
-/
namespace Emaild
open Relational Text

/-! A record as it is published. -/

/-- The terms of a record stand between blanks. -/
def spfTerms (record : String) : List (List Char) := record.toList.splitOn ' '

/-- The version stands first, and is a term of its own. -/
def SpfRecord (record : String) : Prop := (spfTerms record).head? = some "v=spf1".toList

/-- One of the terms includes the provider's record, and a match of it passes. -/
def IncludesProvider (record : String) : Prop :=
  "include:mxroute.com".toList ∈ spfTerms record ∨
    "+include:mxroute.com".toList ∈ spfTerms record

instance (record : String) : Decidable (SpfRecord record) := inferInstanceAs (Decidable (_ = _))

instance (record : String) : Decidable (IncludesProvider record) :=
  inferInstanceAs (Decidable (_ ∨ _))

/-- Exactly one of the texts is an SPF record, and that one includes the provider's. -/
def AuthorisesProvider (values : List String) : Prop :=
  ∃ record, values.filter (fun v => SpfRecord v) = [record] ∧ IncludesProvider record

/-- What is relied on about `str.lower`: small letters, digits and signs of ASCII at the head
of a text are left as they are. -/
def KeepsSmall (lower : String → String) : Prop :=
  ∀ head rest : String, (∀ c ∈ head.toList, c.toNat < 128 ∧ c.isUpper = false) →
    startsWith head (lower (head ++ rest)) = true

/-- A text between two blanks. -/
def padded (text : String) : String := " " ++ text ++ " "

theorem toList_padded (text : String) : (padded text).toList = ' ' :: text.toList ++ [' '] := by
  rw [padded, String.toList_append, String.toList_append]
  rfl

section Words
variable {rt : Runtime} {record : String}

/-- A term is a word that stands between blanks. -/
theorem mem_spfTerms {word : String} (whole : ' ' ∉ word.toList) :
    word.toList ∈ spfTerms record ↔ contains (padded word) (padded record) = true := by
  rw [contains_iff, toList_padded, toList_padded]
  exact mem_splitOn_iff whole _

theorem spfRecord_iff : SpfRecord record ↔ startsWith "v=spf1 " (record ++ " ") = true := by
  rw [startsWith, List.isPrefixOf_iff_prefix, String.toList_append]
  exact head_splitOn_iff (w := "v=spf1".toList) (by decide) _

theorem SpfRecord.begins (h : SpfRecord record) : ∃ rest, record = "v=spf1" ++ rest := by
  have spelled := List.isPrefixOf_iff_prefix.mp (spfRecord_iff.mp h)
  rw [String.toList_append] at spelled
  have within : "v=spf1".toList <+: record.toList := by
    refine List.prefix_of_prefix_length_le
      ((List.prefix_append "v=spf1".toList [' ']).trans spelled) (List.prefix_append _ _) ?_
    have := spelled.length_le
    simp only [List.length_append] at this
    exact Nat.le_of_add_le_add_right this
  obtain ⟨rest, whole⟩ := within
  exact ⟨.ofList rest, String.toList_inj.mp (by simp [← whole])⟩

/-- Stripping leaves a head that neither begins nor ends with white space. -/
theorem strip_append (head rest : String) (first : head.toList.head?.all (!isSpace ·) = true)
    (last : head.toList.getLast?.any (!isSpace ·) = true) :
    ∃ rest', strip (head ++ rest) = head ++ rest' := by
  obtain ⟨c, ends, ink⟩ := (Option.any_eq_true _ _).mp last
  obtain ⟨front, whole⟩ := List.getLast?_eq_some_iff.mp ends
  have begins : (head ++ rest).toList.dropWhile isSpace = head.toList ++ rest.toList := by
    rw [String.toList_append]
    cases chars : head.toList with
    | nil => simp [chars] at whole
    | cons a more =>
        rw [chars] at first
        rw [List.cons_append, List.dropWhile_cons_of_neg (by simpa using first)]
  refine ⟨.ofList (rest.toList.reverse.dropWhile isSpace).reverse, ?_⟩
  apply String.toList_inj.mp
  rw [strip, begins, rstrip, String.toList_ofList, String.toList_append, String.toList_ofList,
    String.toList_ofList, List.reverse_append, List.dropWhile_append]
  split
  · rename_i blank
    rw [List.isEmpty_iff.mp blank, whole, List.reverse_append, List.reverse_singleton,
      List.singleton_append, List.dropWhile_cons_of_neg (by simpa using ink)]
    simp
  · simp

/-- What is an SPF record looks like one to the check. -/
theorem SpfRecord.looks (lower : KeepsSmall rt.lower) (h : SpfRecord record) :
    startsWith "v=spf1" (rt.lower (strip record)) = true := by
  obtain ⟨rest, rfl⟩ := h.begins
  obtain ⟨rest', stripped⟩ := strip_append "v=spf1" rest rfl rfl
  have small :
      ("v=spf1".toList.all fun c => decide (c.toNat < 128 ∧ c.isUpper = false)) = true := by
    decide
  rw [stripped]
  exact lower "v=spf1" rest' fun c mem => of_decide_eq_true (List.all_eq_true.mp small c mem)

theorem filter_spfRecord (lower : KeepsSmall rt.lower) (values : List String) :
    values.filter (fun v => SpfRecord v) =
      (policyRecords rt "v=spf1" values).filter fun v => SpfRecord v := by
  rw [policyRecords, List.filter_filter]
  refine List.filter_congr fun v _ => ?_
  by_cases h : SpfRecord v
  · simp [h, h.looks lower]
  · simp [h]

end Words

/-- Once the lookup has brought texts the check passes exactly if they do. -/
theorem checkSpf_pass_iff (rt : Runtime) {domain : String} (expected : Json)
    {resolver : String → Lookup TxtRecord} {values : List String}
    (looked : resolveTxt (resolver domain) = .ok (.ok values)) :
    ∃ c, checkSpf rt domain expected resolver = .ok c ∧
      (c.result = .pass ↔ authorisesProvider rt values = true) := by
  obtain ⟨c, made⟩ : ∃ c, checkSpf rt domain expected resolver = .ok c := by
    unfold checkSpf
    simp only [looked, bind, Except.bind]
    repeat' split
    all_goals exact ⟨_, rfl⟩
  refine ⟨c, made, ?_⟩
  have judged := checkSpf_judged rt made
  rw [looked] at judged
  cases judged with
  | settled _ passes => exact passes

namespace Sample

/-- The domain has one text, in ASCII. -/
def publishing (text : String) : String → Lookup TxtRecord :=
  fun _ => .answered [⟨[text.toList.map fun c => .ofNat c.toNat]⟩]

theorem keepsSmall : KeepsSmall runtime.lower := fun head rest _ => by
  rw [startsWith, List.isPrefixOf_iff_prefix]
  exact String.toList_append ▸ List.prefix_append head.toList rest.toList

end Sample

end Emaild
