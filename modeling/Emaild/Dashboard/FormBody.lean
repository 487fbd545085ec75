import Emaild.Relational.Table
import Emaild.Text.FormData

/-!
What the dashboard reads of a submitted form: the values of each field, in their order. A
form that a browser sends is read as it was filled in.
-/
namespace Emaild
open Relational Text

/-- `parsed.setdefault(key, []).append(value)` -/
def addField (form : Dict String (List String)) (entry : String × String) :
    Dict String (List String) :=
  form.set entry.1 ((form.get? entry.1).getD [] ++ [entry.2])

/-- `parse_form`, of the body of a request. -/
def parseForm (raw : List UInt8) : Dict String (List String) :=
  (FormData.parseQsl (decodeReplacing none raw)).foldl addField Table.empty

/-- `one` -/
def one (form : Dict String (List String)) (field : String) : String :=
  match (form.get? field).getD [] with
  | [] => ""
  | value :: _ => strip value

/-- `many` -/
def many (form : Dict String (List String)) (field : String) : List String :=
  (((form.get? field).getD []).map strip).filter (· ≠ "")

section Body
variable (entries : List (String × String))

/-- The body that a browser sends. -/
def formBody : List UInt8 := utf8 (.ofList (FormData.body entries))

theorem get?_addFields (form : Dict String (List String)) (field : String) :
    ((entries.foldl addField form).get? field).getD [] =
      (form.get? field).getD [] ++ (entries.filter fun e => e.1 = field).map Prod.snd := by
  induction entries generalizing form with
  | nil => simp
  | cons e entries ih =>
      rw [List.foldl_cons, ih, addField, Dict.get?_set]
      by_cases here : field = e.1
      · subst here
        simp
      · simp [here, Ne.symm here]

theorem parseForm_formBody (field : String) :
    ((parseForm (formBody entries)).get? field).getD [] =
      (entries.filter fun e => e.1 = field).map Prod.snd := by
  have empty : Dict.get? (Table.empty : Dict String (List String)) field = none := rfl
  rw [parseForm, formBody, decodeReplacing_utf8, String.toList_ofList, FormData.parseQsl_body,
    get?_addFields, empty]
  rfl

end Body
end Emaild
