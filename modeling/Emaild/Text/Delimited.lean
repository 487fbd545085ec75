import Mathlib.Logic.Function.Basic
import Mathlib.Data.List.Basic

/-!
Self-delimiting encodings: whatever follows an encoded value, the value and what
follows it can be told apart again. They are closed under pairs and lists, so a
text that is put together from them determines the data it was made from.
-/
namespace Text
universe u v
variable {α : Type u} {β : Type v}

def SelfDelimiting (encode : α → List Char) : Prop :=
  ∀ a b rest rest', encode a ++ rest = encode b ++ rest' → a = b ∧ rest = rest'

theorem SelfDelimiting.injective {encode : α → List Char} (h : SelfDelimiting encode) :
    Function.Injective encode := by
  intro a b same
  exact (h a b [] [] (by rw [same])).1

theorem selfDelimiting_char : SelfDelimiting fun c : Char => [c] := by
  intro a b rest rest' h
  exact ⟨List.head_eq_of_cons_eq h, List.tail_eq_of_cons_eq h⟩

/-- Through an injective view of the value. -/
theorem SelfDelimiting.comp {encode : β → List Char} (h : SelfDelimiting encode) {f : α → β}
    (injective : Function.Injective f) : SelfDelimiting fun a => encode (f a) := by
  intro a b rest rest' same
  obtain ⟨eq, rest⟩ := h _ _ rest rest' same
  exact ⟨injective eq, rest⟩

theorem SelfDelimiting.pair {encode : α → List Char} {encode' : β → List Char}
    (h : SelfDelimiting encode) (h' : SelfDelimiting encode') :
    SelfDelimiting fun p : α × β => encode p.1 ++ encode' p.2 := by
  rintro ⟨a, b⟩ ⟨a', b'⟩ rest rest' same
  dsimp only at same
  rw [List.append_assoc, List.append_assoc] at same
  obtain ⟨rfl, seconds⟩ := h a a' _ _ same
  obtain ⟨rfl, after⟩ := h' b b' _ _ seconds
  exact ⟨rfl, after⟩

/-- Every element behind a mark, and another mark at the end. -/
def delimited (encode : α → List Char) : List α → List Char
  | [] => ['.']
  | a :: as => '-' :: encode a ++ delimited encode as

theorem SelfDelimiting.list {encode : α → List Char} (h : SelfDelimiting encode) :
    SelfDelimiting (delimited encode) := by
  intro as
  induction as with
  | nil =>
      rintro (_ | ⟨b, bs⟩) rest rest' same
      · exact ⟨rfl, List.tail_eq_of_cons_eq same⟩
      · exact absurd (List.head_eq_of_cons_eq same) (by decide)
  | cons a as ih =>
      rintro (_ | ⟨b, bs⟩) rest rest' same
      · exact absurd (List.head_eq_of_cons_eq same) (by decide)
      · have both : encode a ++ (delimited encode as ++ rest) =
            encode b ++ (delimited encode bs ++ rest') := by
          simpa [delimited, List.append_assoc] using same
        obtain ⟨rfl, tails⟩ := h a b _ _ both
        obtain ⟨rfl, after⟩ := ih bs rest rest' tails
        exact ⟨rfl, after⟩

/-- A string as the list of its characters. -/
def spell (s : String) : List Char := delimited (fun c => [c]) s.toList

theorem selfDelimiting_spell : SelfDelimiting spell :=
  selfDelimiting_char.list.comp fun _ _ same => String.ext same

end Text
