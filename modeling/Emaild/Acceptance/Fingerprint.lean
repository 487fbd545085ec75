import Emaild.Ingest
import Emaild.Text.JsonText

/-!
The text whose digest stands for a request when its key is used again. Two requests have the
same text exactly if they agree in every field, the entries of the mappings in any order.
-/
namespace Emaild
open Relational Text

theorem printable_comma : ∀ c ∈ [','], Document.Printable c :=
  List.all_iff_forall_prop.mp (by decide)

theorem printable_colon : ∀ c ∈ [':'], Document.Printable c :=
  List.all_iff_forall_prop.mp (by decide)

/-- `separators=(",", ":")` -/
def compact : Document.Separators where
  item := [',']
  key := [':']
  item_comma := rfl
  item_printable := printable_comma
  key_printable := printable_colon

def PayloadValue.document : PayloadValue → Document
  | .text s => .text s
  | .list l => .list (l.map .text)
  | .object entries => .object (entries.map fun e => (e.1, .text e.2))

/-- What `canonical_request_hash` digests. -/
def canonicalText (r : SendEmailRequest) : String :=
  .ofList (Document.dumps compact (.object ((canonicalPayload r).map fun e => (e.1, e.2.document))))

theorem document_injective : Function.Injective PayloadValue.document := by
  have texts : Function.Injective Document.text := fun _ _ same => Document.text.inj same
  intro a b same
  cases a with
  | text s =>
      cases b with
      | text s' => exact congrArg _ (texts same)
      | list | object => cases same
  | list l =>
      cases b with
      | list l' => exact congrArg _ (texts.list_map (Document.list.inj same))
      | text | object => cases same
  | object entries =>
      cases b with
      | object entries' =>
          refine congrArg _ (List.map_injective_iff.mpr ?_ (Document.object.inj same))
          rintro ⟨k, v⟩ ⟨k', v'⟩ entry
          exact Prod.ext (Prod.mk.inj entry).1 (texts (Prod.mk.inj entry).2)
      | text | list => cases same

/-! Which fields there are can be seen from the payload. -/

section Present
variable {κ α : Type}

/-- The fields that are not `None`. -/
def present (fields : List (κ × Option α)) : List (κ × α) :=
  fields.filterMap fun (k, v) => v.map fun v => (k, v)

theorem mem_present {fields : List (κ × Option α)} {e : κ × α} :
    e ∈ present fields ↔ (e.1, some e.2) ∈ fields := by
  simp only [present, List.mem_filterMap, Option.map_eq_some_iff]
  constructor
  · rintro ⟨⟨k, v⟩, mem, value, rfl, rfl⟩
    exact mem
  · exact fun mem => ⟨_, mem, e.2, rfl, rfl⟩

theorem present_inj {fields fields' : List (κ × Option α)} (distinct : (fields.map Prod.fst).Nodup)
    (keys : fields.map Prod.fst = fields'.map Prod.fst) (same : present fields = present fields') :
    fields = fields' := by
  induction fields generalizing fields' with
  | nil => rw [List.map_nil, eq_comm, List.map_eq_nil_iff] at keys; rw [keys]
  | cons field fields ih =>
      cases fields' with
      | nil => cases keys
      | cons field' fields' =>
          obtain ⟨k, v⟩ := field
          obtain ⟨k', v'⟩ := field'
          obtain ⟨head, tails⟩ := List.cons.inj keys
          obtain rfl : k = k' := head
          obtain ⟨fresh, others⟩ := List.nodup_cons.mp distinct
          have elsewhere {rest : List (κ × Option α)}
              (keys : fields.map Prod.fst = rest.map Prod.fst)
              (v : α) : (k, v) ∉ present rest := fun mem => by
            refine fresh (keys ▸ List.mem_map.mpr ⟨(k, some v), mem_present.mp mem, rfl⟩)
          cases v with
          | none =>
              cases v' with
              | none => rw [ih others tails same]
              | some v' =>
                  have mem : (k, v') ∈ present ((k, none) :: fields) := by
                    rw [same]
                    exact List.mem_cons_self
                  exact absurd mem (elsewhere rfl v')
          | some v =>
              cases v' with
              | none =>
                  have mem : (k, v) ∈ present ((k, none) :: fields') := by
                    rw [← same]
                    exact List.mem_cons_self
                  exact absurd mem (elsewhere tails v)
              | some v' =>
                  obtain ⟨entry, rest⟩ := List.cons.inj same
                  obtain rfl : v = v' := (Prod.mk.inj entry).2
                  rw [ih others tails rest]

end Present

/-! Mappings in the order of their keys. -/

section Sorted

def sortedRows (d : Dict String String) : List (String × String) :=
  d.rows.insertionSort fun a b => a.1 ≤ b.1

theorem mem_sortedRows {d : Dict String String} {e : String × String} :
    e ∈ sortedRows d ↔ d.get? e.1 = some e.2 := by
  rw [sortedRows, List.mem_insertionSort, Dict.get?, Option.map_eq_some_iff]
  constructor
  · exact fun mem => ⟨e, Table.find?_of_mem mem, rfl⟩
  · rintro ⟨e', found, value⟩
    obtain rfl : e' = e := Prod.ext (Table.key_of_find? found) value
    exact Table.mem_of_find? found

theorem sortedRows_eq_iff {d d' : Dict String String} :
    sortedRows d = sortedRows d' ↔ ∀ k, d.get? k = d'.get? k := by
  constructor
  · intro same k
    refine Option.ext fun v => ?_
    rw [← mem_sortedRows (e := (k, v)), same, mem_sortedRows]
  · intro same
    have nodup (d : Dict String String) : (sortedRows d).Nodup :=
      (List.perm_insertionSort _ _).nodup_iff.mpr (List.Nodup.of_map _ d.nodup)
    have ordered (d : Dict String String) : (sortedRows d).Pairwise fun a b => a.1 ≤ b.1 :=
      List.pairwise_insertionSort _ _
    have perm : (sortedRows d).Perm (sortedRows d') :=
      (List.perm_ext_iff_of_nodup (nodup d) (nodup d')).mpr fun e => by
        rw [mem_sortedRows, mem_sortedRows, same]
    refine perm.eq_of_pairwise (fun a b mem mem' le ge => ?_) (ordered d) (ordered d')
    have key := String.le_antisymm le ge
    rw [mem_sortedRows] at mem mem'
    rw [key, same, mem'] at mem
    exact Prod.ext key (Option.some.inj mem).symm

end Sorted

section Requests

/-- The same mapping, or none in either. -/
def SameEntries : Option (Dict String String) → Option (Dict String String) → Prop
  | none, none => True
  | some d, some d' => ∀ k, d.get? k = d'.get? k
  | _, _ => False

/-- Two requests that ask for the same message. -/
structure SameRequest (r r' : SendEmailRequest) : Prop where
  sender : r.from = r'.from
  recipients : r.to = r'.to
  copies : r.cc = r'.cc
  blindCopies : r.bcc = r'.bcc
  subject : r.subject = r'.subject
  html : r.html = r'.html
  text : r.text = r'.text
  replyTo : r.replyTo = r'.replyTo
  headers : SameEntries r.headers r'.headers
  tags : SameEntries r.tags r'.tags

/-- The fields of a request with their keys in order, those that are `None` among them. -/
def fields (r : SendEmailRequest) : List (String × Option PayloadValue) :=
  [ ("bcc", r.bcc.map .list), ("cc", r.cc.map .list), ("from", some (.text r.from)),
    ("headers", r.headers.map fun d => .object (sortedRows d)), ("html", r.html.map .text),
    ("reply_to", r.replyTo.map .text), ("subject", r.subject.map .text),
    ("tags", r.tags.map fun d => .object (sortedRows d)), ("text", r.text.map .text),
    ("to", some (.list r.to)) ]

theorem canonicalPayload_eq (r : SendEmailRequest) : canonicalPayload r = present (fields r) := rfl

theorem sameEntries_iff {o o' : Option (Dict String String)} : SameEntries o o' ↔
    (o.map fun d => PayloadValue.object (sortedRows d)) =
      o'.map fun d => PayloadValue.object (sortedRows d) := by
  cases o <;> cases o' <;> simp [SameEntries, sortedRows_eq_iff]

theorem fields_eq_iff {r r' : SendEmailRequest} : fields r = fields r' ↔ SameRequest r r' := by
  have lists : Function.Injective (Option.map PayloadValue.list) :=
    Option.map_injective fun _ _ same => PayloadValue.list.inj same
  have texts : Function.Injective (Option.map PayloadValue.text) :=
    Option.map_injective fun _ _ same => PayloadValue.text.inj same
  constructor
  · intro same
    simp only [fields, List.cons.injEq, Prod.mk.injEq, true_and, and_true, Option.some.injEq,
      PayloadValue.text.injEq, PayloadValue.list.injEq] at same
    obtain ⟨bcc, cc, sender, headers, html, replyTo, subject, tags, text, recipients⟩ := same
    exact ⟨sender, recipients, lists cc, lists bcc, texts subject, texts html, texts text,
      texts replyTo, sameEntries_iff.mpr headers, sameEntries_iff.mpr tags⟩
  · intro same
    unfold fields
    rw [same.sender, same.recipients, same.copies, same.blindCopies, same.subject, same.html,
      same.text, same.replyTo, sameEntries_iff.mp same.headers, sameEntries_iff.mp same.tags]

/-- The text tells apart all requests that differ, and no others. -/
theorem canonicalText_eq_iff (r r' : SendEmailRequest) :
    canonicalText r = canonicalText r' ↔ SameRequest r r' := by
  have entries : Function.Injective
      fun e : String × PayloadValue => (e.1, e.2.document) := fun e e' same =>
    Prod.ext (Prod.mk.inj same).1 (document_injective (Prod.mk.inj same).2)
  have keys : ((fields r).map Prod.fst).Nodup := by
    change ["bcc", "cc", "from", "headers", "html", "reply_to", "subject", "tags",
      "text", "to"].Nodup
    decide
  rw [← fields_eq_iff]
  constructor
  · intro same
    have documents := Document.dumps_injective compact (String.ofList_injective same)
    have payloads := entries.list_map (Document.object.inj documents)
    exact present_inj keys rfl payloads
  · intro same
    rw [canonicalText, canonicalText, canonicalPayload_eq, canonicalPayload_eq, same]

end Requests
end Emaild
