import Emaild.Fleet.Steps

/-!
What no worker and no operator touches: the tables that a key is resolved from,
the answers given to earlier requests, and everything of a message that its
recipients will see, short of a body that is purged.
-/
namespace Emaild
open Relational

/-- The tables behind a key holder: who it is, what it may use, what it was
answered. -/
structure SameStanding (before after : Database) : Prop where
  projects : after.projects = before.projects
  apiKeys : after.apiKeys = before.apiKeys
  apiKeyScopes : after.apiKeyScopes = before.apiKeyScopes
  idempotencyKeys : after.idempotencyKeys = before.idempotencyKeys

namespace SameStanding

theorem refl (db : Database) : SameStanding db db := ⟨rfl, rfl, rfl, rfl⟩

theorem trans {a b c : Database} (h : SameStanding a b) (h' : SameStanding b c) :
    SameStanding a c :=
  ⟨h'.projects.trans h.projects, h'.apiKeys.trans h.apiKeys, h'.apiKeyScopes.trans h.apiKeyScopes,
    h'.idempotencyKeys.trans h.idempotencyKeys⟩

end SameStanding

theorem standing_addSuppressionRow (db : Database) (row : Suppression) :
    SameStanding db (db.addSuppressionRow row) := by
  unfold Database.addSuppressionRow
  split <;> exact ⟨rfl, rfl, rfl, rfl⟩

theorem standing_emitAll (db : Database) (id : Nat) (events : List (String × EventDetail)) :
    SameStanding db (db.emitAll id events) := by
  induction events generalizing db with
  | nil => exact .refl db
  | cons e events ih =>
      have first : SameStanding db (db.emit id e.1 e.2) := ⟨rfl, rfl, rfl, rfl⟩
      exact first.trans (ih _)

section Programs
variable (rt : Runtime) (race : Race) (now : Time)

theorem insertSuppression_standing (record : Suppression) :
    (insertSuppression race record).Keeps SameStanding := by
  unfold insertSuppression
  -- what comes after the rival's commit is the same whether there is one or not
  dsimp only
  split
  all_goals
    try
      refine .bind (.interfere fun _ t kept => ?_) fun _ => ?_
      · exact kept.trans (standing_addSuppressionRow t _)
    refine .bind .look fun seen => ?_
    split
    · exact .bind (.write fun _ _ kept => kept.trans ⟨rfl, rfl, rfl, rfl⟩) fun _ => .pure _
    · refine .bind .rollback fun _ => .bind .look fun seen => ?_
      split
      · exact .pure _
      · exact .throw _

theorem addSuppression_standing (address : String) (source : SuppressionSource)
    (reason : Option String) (projectId : Option Nat) :
    (addSuppression rt race now address source reason projectId).Keeps SameStanding := by
  unfold addSuppression
  refine .bind (.lift _) fun normalised => .bind .look fun seen => ?_
  split
  · exact .pure _
  · dsimp only
    split
    · exact insertSuppression_standing race _
    · exact .throw _

theorem suppressRecipient_standing (m : Message) (address : String) (code : Option Int)
    (text : Option String) :
    (suppressRecipient rt race now m address code text).Keeps SameStanding := by
  unfold suppressRecipient
  refine .bind (addSuppression_standing rt race now _ _ _ _) fun added => ?_
  dsimp only
  split
  · split
    · exact .write fun _ _ kept => kept.trans ⟨rfl, rfl, rfl, rfl⟩
    · exact .throw _
  · exact .pure _

theorem suppressDeadRecipients_standing (m : Message)
    (candidates : List (String × Option Int × Option String)) :
    (suppressDeadRecipients rt race now m candidates).Keeps SameStanding := by
  induction candidates with
  | nil => exact .pure _
  | cons c rest ih =>
      obtain ⟨address, code, text⟩ := c
      unfold suppressDeadRecipients
      split
      · refine .bind .look fun seen => ?_
        split
        · exact .throw _
        · split
          · exact ih
          · exact .bind (suppressRecipient_standing rt race now m address code text) fun _ => ih
      · exact ih

theorem recordOutcome_standing (id : Nat) (r : Recording) :
    (recordOutcome rt race id r).Keeps SameStanding := by
  unfold recordOutcome
  refine .bind .look fun seen => ?_
  split
  · exact .throw _
  · rename_i m _
    split
    · refine .bind (.write fun _ t kept => kept.trans ?_) fun _ =>
        suppressDeadRecipients_standing rt race _ _ _
      have set : SameStanding t (t.setMessage m.id r.row r.row_id) := ⟨rfl, rfl, rfl, rfl⟩
      exact set.trans (standing_emitAll _ _ _)
    · exact .throw _

end Programs

theorem openDelivery_standing {margin : SafetyMargin} {fails : Bool} {db db' : Database} {id : Nat}
    {now later : Time} {opening : Opening}
    (h : openDelivery margin fails db id now later = .ok (opening, db')) : SameStanding db db' := by
  unfold openDelivery at h
  split at h
  · cases h
    exact .refl db
  · dsimp only at h
    split at h
    · cases h
      exact ⟨rfl, rfl, rfl, rfl⟩
    · split at h
      · cases h
        exact ⟨rfl, rfl, rfl, rfl⟩
      · split at h <;> cases h
        exact ⟨rfl, rfl, rfl, rfl⟩

/-- Only a request writes to these tables. -/
theorem standing_of_advance {D : Deployment} {s t : Fleet} {now later : Time} {act : Action}
    (h : Fleet.advance D s now later act = some t)
    (quiet : ∀ principal request key draw, act ≠ .ingest principal request key draw) :
    SameStanding s.db t.db := by
  cases Fleet.acts_of_advance D h with
  | ingest => exact absurd rfl (quiet _ _ _ _)
  | start | kill | requestShutdown | stop | raised | claim | release | send | reap | purge |
      changeDomain | setMailboxActive => exact ⟨rfl, rfl, rfl, rfl⟩
  | deliver =>
      unfold Fleet.deliver
      split
      · exact .refl _
      · rename_i opened
        exact openDelivery_standing opened
  | record => exact sessionScope_keeps (recordOutcome_standing _ _ _ _) (.refl _)
  | suppress => exact sessionScope_keeps (addSuppression_standing _ _ _ _ _ _ _) (.refl _)
  | unsuppress removed =>
      unfold removeSuppression at removed
      split at removed <;> cases removed
      exact ⟨rfl, rfl, rfl, rfl⟩
  | invalid => exact .refl _

/-! The letter itself. -/

/-- What of a message its recipients will see, and whose it is. -/
structure SameHeader (m m' : Message) : Prop where
  publicId : m'.publicId = m.publicId
  projectId : m'.projectId = m.projectId
  sender : m'.fromAddress = m.fromAddress ∧ m'.fromName = m.fromName ∧
    m'.returnPath = m.returnPath
  recipients : m'.toAddresses = m.toAddresses ∧ m'.ccAddresses = m.ccAddresses ∧
    m'.bccAddresses = m.bccAddresses
  replyTo : m'.replyTo = m.replyTo
  subject : m'.subject = m.subject

theorem SameHeader.refl (m : Message) : SameHeader m m :=
  ⟨rfl, rfl, ⟨rfl, rfl, rfl⟩, ⟨rfl, rfl, rfl⟩, rfl, rfl⟩

theorem SameHeader.trans {a b c : Message} (h : SameHeader a b) (h' : SameHeader b c) :
    SameHeader a c where
  publicId := h'.publicId.trans h.publicId
  projectId := h'.projectId.trans h.projectId
  sender := ⟨h'.sender.1.trans h.sender.1, h'.sender.2.1.trans h.sender.2.1,
    h'.sender.2.2.trans h.sender.2.2⟩
  recipients := ⟨h'.recipients.1.trans h.recipients.1, h'.recipients.2.1.trans h.recipients.2.1,
    h'.recipients.2.2.trans h.recipients.2.2⟩
  replyTo := h'.replyTo.trans h.replyTo
  subject := h'.subject.trans h.subject

theorem Recording.row_header (r : Recording) (m : Message) : SameHeader m (r.row m) := by
  unfold Recording.row outcome
  split
  · exact ⟨rfl, rfl, ⟨rfl, rfl, rfl⟩, ⟨rfl, rfl, rfl⟩, rfl, rfl⟩
  · dsimp only [applyFailure]
    split <;> exact ⟨rfl, rfl, ⟨rfl, rfl, rfl⟩, ⟨rfl, rfl, rfl⟩, rfl, rfl⟩

namespace Fleet
variable {D : Deployment} {s t : Fleet} {now later : Time} {act : Action}

theorem RowChange.header {m m' : Message} (c : RowChange D s now later act m m') :
    SameHeader m m' := by
  cases c with
  | recorded => exact Recording.row_header _ m
  | _ => exact ⟨rfl, rfl, ⟨rfl, rfl, rfl⟩, ⟨rfl, rfl, rfl⟩, rfl, rfl⟩

/-- A message that is there stays, as the same letter. -/
theorem Effect.header (e : Effect D s now later act t) {id : Nat} {m : Message}
    (found : s.db.messages.find? id = some m) :
    ∃ m', t.db.messages.find? id = some m' ∧ SameHeader m m' := by
  cases e.row id with
  | same eq => exact ⟨m, eq.trans found, .refl m⟩
  | changed before after change =>
      obtain rfl := Option.some.inj (before.symm.trans found)
      exact ⟨_, after, change.header⟩
  | new _ before =>
      rw [before] at found
      cases found

end Fleet
end Emaild
