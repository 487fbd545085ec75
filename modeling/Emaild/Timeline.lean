import Emaild.Models
import Mathlib.Data.List.MinMax
import Mathlib.Order.Nat

/-!
The append-only event log of a message. A new event takes the next free sequence
number, so appending never collides with the unique constraint.
-/
namespace Emaild
open Relational

namespace Database

def timeline (db : Database) (messageId : Nat) : List Event :=
  db.events.rows.filter fun e => e.messageId = messageId

/-- `coalesce(max(sequence), 0) + 1` over the message's events. -/
def nextSequence (db : Database) (messageId : Nat) : Nat :=
  ((db.timeline messageId).map Event.sequence).foldr max 0 + 1

theorem mem_timeline {db : Database} {messageId : Nat} {e : Event} :
    e ∈ db.timeline messageId ↔ e ∈ db.events ∧ e.messageId = messageId := by
  simp [timeline, Table.mem_def]

theorem sequence_lt_next {db : Database} {messageId : Nat} {e : Event}
    (h : e ∈ db.timeline messageId) : e.sequence < db.nextSequence messageId := by
  have bound : e.sequence ≤ ((db.timeline messageId).map Event.sequence).foldr max 0 :=
    List.le_max_of_le (List.mem_map_of_mem h) (Nat.le_refl _)
  exact Nat.lt_succ_of_le bound

theorem nextSequence_free (db : Database) (messageId : Nat) :
    db.events.find? (messageId, db.nextSequence messageId) = none := by
  rw [Table.find?_eq_none]
  intro e he hp
  have hid : e.messageId = messageId := congrArg Prod.fst hp
  have hseq : e.sequence = db.nextSequence messageId := congrArg Prod.snd hp
  exact Nat.ne_of_lt (sequence_lt_next (mem_timeline.mpr ⟨he, hid⟩)) hseq

/-- `_emit` -/
def emit (db : Database) (messageId : Nat) (eventType : String) (detail : EventDetail) :
    Database :=
  { db with
    events := db.events.insert ⟨messageId, db.nextSequence messageId, eventType, detail⟩
      (db.nextSequence_free messageId) }

@[simp] theorem emit_messages (db : Database) (id : Nat) (type : String) (d : EventDetail) :
    (db.emit id type d).messages = db.messages := rfl

@[simp] theorem emit_suppressions (db : Database) (id : Nat) (type : String)
    (d : EventDetail) : (db.emit id type d).suppressions = db.suppressions := rfl

@[simp] theorem emit_mailboxes (db : Database) (id : Nat) (type : String) (d : EventDetail) :
    (db.emit id type d).mailboxes = db.mailboxes := rfl

@[simp] theorem emit_domains (db : Database) (id : Nat) (type : String) (d : EventDetail) :
    (db.emit id type d).domains = db.domains := rfl

theorem timeline_emit (db : Database) (id : Nat) (type : String) (d : EventDetail)
    (id' : Nat) :
    (db.emit id type d).timeline id' =
      db.timeline id' ++ if id = id' then [⟨id, db.nextSequence id, type, d⟩] else [] := by
  by_cases h : id = id' <;> simp [timeline, emit, Table.insert, h, List.filter_append]

/-- Emitting makes the timeline one event longer, and the new event is none of
the old ones. -/
theorem emitted_not_mem (db : Database) (id : Nat) (type : String) (d : EventDetail) :
    (⟨id, db.nextSequence id, type, d⟩ : Event) ∉ db.timeline id := by
  intro h
  exact Nat.lt_irrefl _ (sequence_lt_next h)

/-- What the events of a message tell, in the order in which they were added. -/
def story (db : Database) (messageId : Nat) : List (String × EventDetail) :=
  (db.timeline messageId).map fun e => (e.eventType, e.detail)

/-- The events of a message are numbered from 1 on, in the order in which they were added. -/
def Numbered (db : Database) (messageId : Nat) : Prop :=
  (db.timeline messageId).map Event.sequence = List.range' 1 (db.timeline messageId).length

theorem foldr_max_range' (n : Nat) : (List.range' 1 n).foldr max 0 = n := by
  have general (k : Nat) : ∀ start, 0 < k →
      (List.range' start k).foldr max 0 = start + k - 1 := by
    induction k with
    | zero => exact fun _ positive => absurd positive (Nat.lt_irrefl 0)
    | succ k ih =>
        intro start _
        rw [List.range'_succ, List.foldr_cons]
        rcases k.eq_zero_or_pos with rfl | positive
        · simp
        · rw [ih (start + 1) positive]
          omega
  rcases n.eq_zero_or_pos with rfl | positive
  · rfl
  · rw [general n 1 positive]
    omega

theorem Numbered.next {db : Database} {messageId : Nat} (numbered : db.Numbered messageId) :
    db.nextSequence messageId = (db.timeline messageId).length + 1 := by
  rw [nextSequence, numbered, foldr_max_range']

/-- An update of message rows. -/
def updateMessages (db : Database) (p : Message → Bool) (f : Message → Message)
    (hf : ∀ m, (f m).id = m.id := by intro _; rfl) : Database :=
  { db with messages := db.messages.update p f hf }

theorem find?_updateMessages (db : Database) (p : Message → Bool) (f : Message → Message)
    (hf : ∀ m, (f m).id = m.id) (id : Nat) :
    (db.updateMessages p f hf).messages.find? id =
      (db.messages.find? id).map fun m => if p m then f m else m :=
  db.messages.find?_update p f hf id

/-- What the unit of work writes for one loaded message. -/
def setMessage (db : Database) (id : Nat) (f : Message → Message)
    (hf : ∀ m, (f m).id = m.id := by intro _; rfl) : Database :=
  { db with messages := db.messages.modify id f hf }

theorem setMessage_congr {db : Database} {id : Nat} {f g : Message → Message}
    {hf : ∀ m, (f m).id = m.id} {hg : ∀ m, (g m).id = m.id}
    (h : ∀ m ∈ db.messages, m.id = id → f m = g m) :
    db.setMessage id f hf = db.setMessage id g hg :=
  congrArg (fun messages => { db with messages := messages }) (Table.modify_congr h)

section SetMessage
variable (db : Database) (id : Nat) (f : Message → Message) (hf : ∀ m, (f m).id = m.id)

@[simp] theorem setMessage_messages :
    (db.setMessage id f hf).messages = db.messages.modify id f hf := rfl

@[simp] theorem setMessage_suppressions :
    (db.setMessage id f hf).suppressions = db.suppressions := rfl

@[simp] theorem setMessage_mailboxes : (db.setMessage id f hf).mailboxes = db.mailboxes := rfl

@[simp] theorem setMessage_domains : (db.setMessage id f hf).domains = db.domains := rfl

@[simp] theorem setMessage_timeline (id' : Nat) :
    (db.setMessage id f hf).timeline id' = db.timeline id' := rfl

end SetMessage

end Database

/-- A transaction that touches neither a message row nor a sender identity. -/
structure Bystander (before after : Database) : Prop where
  messages : after.messages = before.messages
  mailboxes : after.mailboxes = before.mailboxes
  domains : after.domains = before.domains

theorem Bystander.refl (db : Database) : Bystander db db := ⟨rfl, rfl, rfl⟩

theorem Bystander.trans {a b c : Database} (h : Bystander a b) (h' : Bystander b c) :
    Bystander a c :=
  ⟨h'.messages.trans h.messages, h'.mailboxes.trans h.mailboxes, h'.domains.trans h.domains⟩

/-- A transaction that rewrites one message row and leaves the other rows and the
sender identities as they are. -/
structure Rewrites (id : Nat) (f : Message → Message) (before after : Database) : Prop where
  messages : ∀ id', after.messages.find? id' =
    if id' = id then (before.messages.find? id').map f else before.messages.find? id'
  mailboxes : after.mailboxes = before.mailboxes
  domains : after.domains = before.domains

theorem rewrites_emit (db : Database) (id : Nat) (f : Message → Message)
    (hf : ∀ m, (f m).id = m.id) (type : String) (d : EventDetail) :
    Rewrites id f db ((db.setMessage id f hf).emit id type d) :=
  ⟨fun id' => db.messages.find?_modify id f hf id', rfl, rfl⟩

namespace Rewrites
variable {id : Nat} {f : Message → Message} {before after : Database} {m : Message}

theorem self (h : Rewrites id f before after) (found : before.messages.find? id = some m) :
    after.messages.find? id = some (f m) := by
  rw [h.messages, if_pos rfl, found]
  rfl

theorem other (h : Rewrites id f before after) {id' : Nat} (ne : id' ≠ id) :
    after.messages.find? id' = before.messages.find? id' := by
  rw [h.messages, if_neg ne]

theorem andThen (h : Rewrites id f before after) {later : Database}
    (rest : Bystander after later) : Rewrites id f before later :=
  ⟨fun id' => by rw [rest.messages, h.messages], rest.mailboxes.trans h.mailboxes,
    rest.domains.trans h.domains⟩

end Rewrites

/-- The timeline of one message goes on with the given news, the others stay. -/
structure Tells (id : Nat) (news : List (String × EventDetail)) (before after : Database) :
    Prop where
  story : after.story id = before.story id ++ news
  others : ∀ id', id' ≠ id → after.timeline id' = before.timeline id'
  numbered : before.Numbered id → after.Numbered id

namespace Tells
variable {id : Nat} {before middle after : Database}

theorem nothing (same : after.events = before.events) : Tells id [] before after := by
  have timeline (id : Nat) : after.timeline id = before.timeline id := by
    rw [Database.timeline, same, Database.timeline]
  refine ⟨?_, fun id' _ => timeline id', fun numbered => ?_⟩
  · rw [Database.story, timeline, Database.story, List.append_nil]
  · rwa [Database.Numbered, timeline]

theorem trans {first second : List (String × EventDetail)} (h : Tells id first before middle)
    (h' : Tells id second middle after) : Tells id (first ++ second) before after :=
  ⟨by rw [h'.story, h.story, List.append_assoc],
    fun id' ne => (h'.others id' ne).trans (h.others id' ne), h'.numbered ∘ h.numbered⟩

theorem emit (db : Database) (id : Nat) (type : String) (d : EventDetail) :
    Tells id [(type, d)] db (db.emit id type d) := by
  refine ⟨?_, fun id' ne => ?_, fun numbered => ?_⟩
  · rw [Database.story, Database.timeline_emit, if_pos rfl, List.map_append]
    rfl
  · rw [Database.timeline_emit, if_neg (Ne.symm ne), List.append_nil]
  · have next := numbered.next
    rw [Database.Numbered] at numbered ⊢
    rw [Database.timeline_emit, if_pos rfl, List.map_append, numbered, List.length_append,
      List.length_singleton, List.range'_1_concat, Nat.add_comm 1, ← next]
    rfl

end Tells
end Emaild
