import Mathlib.Data.List.Basic

/-!
Decoded JSON documents and the questions the implementation language asks of
them. A member that is looked up in something other than an object has no answer.
-/
namespace Text

inductive Json
  | null
  | bool (value : Bool)
  | number (value : Rat)
  | string (text : String)
  | array (items : List Json)
  | object (members : List (String × Json))

namespace Json

/-- `bool(value)` -/
def truthy : Json → Bool
  | null => false
  | bool value => value
  | number value => value ≠ 0
  | string text => text ≠ ""
  | array items => !items.isEmpty
  | object members => !members.isEmpty

/-- `value or fallback` -/
def orElse (value fallback : Json) : Json := if value.truthy then value else fallback

/-- `value.get(key, fallback)`, if the value is an object. -/
def getD? (value : Json) (key : String) (fallback : Json) : Option Json :=
  match value with
  | object members => some ((members.lookup key).getD fallback)
  | _ => none

/-- `value.get(key)` -/
def get? (value : Json) (key : String) : Option Json := value.getD? key null

/-- `list(value)`, which also spells out a text and lists the keys of an object. -/
def items? : Json → Option (List Json)
  | array items => some items
  | object members => some (members.map fun m => string m.1)
  | string text => some (text.toList.map fun c => string (.singleton c))
  | _ => none

/-- The text of a string. -/
def text? : Json → Option String
  | string text => some text
  | _ => none

/-- Whether a value may be a key of a dictionary. -/
def hashable : Json → Bool
  | array _ | object _ => false
  | _ => true

/-- `dict(value)`: an object, or what lists its entries as pairs. Only the entries
whose key is a string can be looked up afterwards. -/
def dict? : Json → Option (List (String × Json))
  | object members => some members
  | value => do
      let entries ← (← value.items?).mapM fun entry => do
        match ← entry.items? with
        | [key, value] => if key.hashable then some (key.text?.map fun k => (k, value)) else none
        | _ => none
      return (entries.filterMap id).reverse

section Storage
variable (stores : String → Bool)

mutual

/-- A document of texts that a store can hold. -/
def storable : Json → Bool
  | null | bool _ | number _ => true
  | string text => stores text
  | array items => itemsStorable items
  | object members => membersStorable members

def itemsStorable : List Json → Bool
  | [] => true
  | item :: items => storable item && itemsStorable items

def membersStorable : List (String × Json) → Bool
  | [] => true
  | (key, value) :: members => stores key && storable value && membersStorable members

end

end Storage

section Equality

mutual

def decEq : ∀ a b : Json, Decidable (a = b)
  | null, b => match b with
      | null => isTrue rfl
      | bool _ | number _ | string _ | array _ | object _ => isFalse nofun
  | bool a, b => match b with
      | bool b => decidable_of_iff (a = b) ⟨congrArg _, bool.inj⟩
      | null | number _ | string _ | array _ | object _ => isFalse nofun
  | number a, b => match b with
      | number b => decidable_of_iff (a = b) ⟨congrArg _, number.inj⟩
      | null | bool _ | string _ | array _ | object _ => isFalse nofun
  | string a, b => match b with
      | string b => decidable_of_iff (a = b) ⟨congrArg _, string.inj⟩
      | null | bool _ | number _ | array _ | object _ => isFalse nofun
  | array a, b => match b with
      | array b =>
          have := decEqItems a b
          decidable_of_iff (a = b) ⟨congrArg _, array.inj⟩
      | null | bool _ | number _ | string _ | object _ => isFalse nofun
  | object a, b => match b with
      | object b =>
          have := decEqMembers a b
          decidable_of_iff (a = b) ⟨congrArg _, object.inj⟩
      | null | bool _ | number _ | string _ | array _ => isFalse nofun

def decEqItems : ∀ a b : List Json, Decidable (a = b)
  | [], [] => isTrue rfl
  | [], _ :: _ | _ :: _, [] => isFalse nofun
  | a :: as, b :: bs =>
      have := decEq a b
      have := decEqItems as bs
      decidable_of_iff (a = b ∧ as = bs) List.cons_eq_cons.symm

def decEqMembers : ∀ a b : List (String × Json), Decidable (a = b)
  | [], [] => isTrue rfl
  | [], _ :: _ | _ :: _, [] => isFalse nofun
  | (k, a) :: as, (l, b) :: bs =>
      have := decEq a b
      have := decEqMembers as bs
      decidable_of_iff ((k = l ∧ a = b) ∧ as = bs) (by rw [List.cons_eq_cons, Prod.mk.injEq])

end

instance : DecidableEq Json := decEq

end Equality

@[simp] theorem truthy_null : truthy null = false := rfl

@[simp] theorem truthy_string (s : String) : truthy (string s) = true ↔ s ≠ "" := by
  simp [truthy]

@[simp] theorem truthy_array (items : List Json) : truthy (array items) = !items.isEmpty := rfl

@[simp] theorem orElse_of_truthy {value : Json} (fallback : Json) (h : value.truthy = true) :
    value.orElse fallback = value := if_pos h

@[simp] theorem get?_object (members : List (String × Json)) (key : String) :
    (object members).get? key = some ((members.lookup key).getD null) := rfl

@[simp] theorem getD?_object (members : List (String × Json)) (key : String) (fallback : Json) :
    (object members).getD? key fallback = some ((members.lookup key).getD fallback) := rfl

end Json
end Text
