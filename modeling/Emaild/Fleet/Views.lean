import Emaild.Emails
import Emaild.Fleet.Chronicle
import Emaild.Fleet.Standing

/-!
What a caller is shown of a message at one point of a run and at a later one. The letter is
the same and the events that were shown stand at the front; once the message has ended, the
answer does not change any more.
-/
namespace Emaild
open Relational Transition

/-! A timeline and the story that it tells. -/

theorem events_of_numbers {id : Nat} {events : List Event} {first : Nat}
    (own : ∀ e ∈ events, e.messageId = id)
    (numbered : events.map Event.sequence = List.range' first events.length) :
    events = ((events.map fun e => (e.eventType, e.detail)).zipIdx first).map fun e =>
      ⟨id, e.2, e.1.1, e.1.2⟩ := by
  induction events generalizing first with
  | nil => rfl
  | cons e events ih =>
      rw [List.map_cons, List.length_cons, List.range'_succ] at numbered
      obtain ⟨sequence, rest⟩ := List.cons.inj numbered
      obtain ⟨mine, others⟩ := List.forall_mem_cons.mp own
      rw [List.map_cons, List.zipIdx_cons, List.map_cons, ← ih others rest]
      subst mine sequence
      rfl

section Timelines
variable {db before after : Database} {id : Nat}

theorem Database.Numbered.timeline_eq (numbered : db.Numbered id) : db.timeline id =
    ((db.story id).zipIdx 1).map fun e => ⟨id, e.2, e.1.1, e.1.2⟩ :=
  events_of_numbers (fun _ mem => (Database.mem_timeline.mp mem).2) numbered

/-- Where the story goes on, so do the events. -/
theorem Database.Numbered.timeline_prefix (numbered : before.Numbered id)
    (numbered' : after.Numbered id) (story : before.story id <+: after.story id) :
    before.timeline id <+: after.timeline id := by
  obtain ⟨more, story⟩ := story
  rw [numbered.timeline_eq, numbered'.timeline_eq, ← story, List.zipIdx_append, List.map_append]
  exact List.prefix_append _ _

/-- Numbered events are in order as they are. -/
theorem Database.Numbered.eventsInOrder_eq (numbered : db.Numbered id) :
    eventsInOrder (db.timeline id) = db.timeline id := by
  have sorted : ((db.timeline id).map Event.sequence).Pairwise (· ≤ ·) := by
    rw [show (db.timeline id).map Event.sequence = _ from numbered]
    exact List.pairwise_le_range'
  exact List.Pairwise.insertionSort_eq (List.pairwise_map.mp sorted)

/-! One step. -/

/-- A timeline over a step, whoever takes it. -/
structure Continues (id : Nat) (before after : Database) : Prop where
  story : before.story id <+: after.story id
  numbered : before.Numbered id → after.Numbered id
  silent : after.messages.find? id = none → after.timeline id = before.timeline id

theorem Continues.of_timeline (same : after.timeline id = before.timeline id) :
    Continues id before after where
  story := by rw [Database.story, Database.story, same]
  numbered numbered := by rwa [Database.Numbered, same]
  silent _ := same

theorem Tells.continues {news : List (String × EventDetail)} (tells : Tells id news before after)
    (there : after.messages.find? id ≠ none) (id' : Nat) : Continues id' before after := by
  by_cases here : id' = id
  · subst here
    exact ⟨by rw [tells.story]; exact List.prefix_append _ _, tells.numbered,
      fun absent => absurd absent there⟩
  · exact .of_timeline (tells.others id' here)

theorem Rewrites.stays {f : Message → Message} {m : Message} (rewrites : Rewrites id f before after)
    (found : before.messages.find? id = some m) : after.messages.find? id ≠ none := by
  simp [rewrites.self found]

theorem Chapter.continues (chapter : Chapter id before after)
    (absent : before.messages.find? id = none → before.timeline id = []) :
    Continues id before after := by
  cases chapter with
  | aside timeline => exact .of_timeline timeline
  | goesOn _ stored _ tells => exact tells.continues (by simp [stored]) id
  | new fresh stored timeline =>
      refine ⟨?_, fun _ => ?_, fun gone => ?_⟩
      · rw [Database.story, Database.story, timeline, List.map_append]
        exact List.prefix_append _ _
      · rw [Database.Numbered, timeline, absent fresh]
        rfl
      · rw [stored] at gone
        cases gone

theorem continues_of_openDelivery {margin : SafetyMargin} {adapterFails : Bool} {now later : Time}
    {opening : Opening}
    (h : openDelivery margin adapterFails before id now later = .ok (opening, after)) (id' : Nat) :
    Continues id' before after := by
  unfold openDelivery at h
  split at h
  · cases h
    exact .of_timeline rfl
  · rename_i m mailbox domain row
    have found := (deliveryRow_eq_some.mp row).1
    obtain rfl : m.id = id := Table.key_of_find? found
    have writes := fun (f : Message → Message) (hf : ∀ m, (f m).id = m.id) type d =>
      (tells_written before m.id f hf type d).continues
        ((rewrites_emit before m.id f hf type d).stays found) id'
    dsimp only at h
    split at h
    · cases h
      exact writes ..
    · split at h
      · cases h
        exact writes ..
      · split at h <;> cases h
        exact writes ..

theorem continues_of_recordOutcome (rt : Runtime) (race : Race) (r : Recording) (db : Database)
    (id id' : Nat) : Continues id' db (sessionScope (recordOutcome rt race id r) db).2 := by
  rcases recordOutcome_tells rt race r id with
    ⟨m, news, found, _, rewrites, tells⟩ | ⟨_, events⟩
  · exact tells.continues (rewrites.stays found) id'
  · refine .of_timeline ?_
    rw [Database.timeline, events, Database.timeline]

/-- What the timelines keep to in every run. -/
structure Recounted (db : Database) : Prop where
  absent : ∀ id, db.messages.find? id = none → db.timeline id = []
  numbered : ∀ id, db.Numbered id

end Timelines

/-! The row that is shown. -/

/-- The same letter, as far as it is shown, after as many attempts or more. -/
structure SameShown (m m' : Message) : Prop extends SameHeader m m' where
  id : m'.id = m.id
  createdAt : m'.createdAt = m.createdAt
  attempts : m.attempts ≤ m'.attempts

theorem SameShown.refl (m : Message) : SameShown m m := ⟨.refl m, rfl, rfl, Nat.le_refl _⟩

theorem SameShown.trans {a b c : Message} (h : SameShown a b) (h' : SameShown b c) :
    SameShown a c :=
  ⟨h.toSameHeader.trans h'.toSameHeader, h'.id.trans h.id, h'.createdAt.trans h.createdAt,
    Nat.le_trans h.attempts h'.attempts⟩

theorem Recording.row_createdAt (r : Recording) (m : Message) :
    (r.row m).createdAt = m.createdAt := by
  unfold Recording.row outcome
  split
  · rfl
  · dsimp only [applyFailure]
    split <;> rfl

/-- A view, and one of the same letter at a later point. -/
structure MessageView.GoesOn (v later : MessageView) : Prop where
  letter : later.id = v.id ∧ later.fromAddress = v.fromAddress ∧ later.to = v.to ∧
    later.cc = v.cc ∧ later.bcc = v.bcc ∧ later.subject = v.subject ∧
    later.createdAt = v.createdAt
  attempts : v.attempts ≤ later.attempts
  events : v.events <+: later.events

theorem SameShown.goesOn (occurredAt : Nat × Nat → Time) {m m' : Message} (same : SameShown m m')
    {before after : Database} (recounted : Recounted before) (recounted' : Recounted after)
    (story : before.story m.id <+: after.story m.id) :
    (m.shown occurredAt (before.timeline m.id)).GoesOn
      (m'.shown occurredAt (after.timeline m'.id)) where
  letter := ⟨same.publicId, same.sender.1, same.recipients.1,
    congrArg (Option.filter _) same.recipients.2.1, congrArg (Option.filter _) same.recipients.2.2,
    same.subject, same.createdAt⟩
  attempts := same.attempts
  events := by
    have numbered := recounted.numbered m.id
    have numbered' := recounted'.numbered m.id
    rw [same.id]
    dsimp only [Message.shown]
    rw [numbered.eventsInOrder_eq, numbered'.eventsInOrder_eq]
    exact (numbered.timeline_prefix numbered' story).map _

theorem MessageStatus.terminal_of_value {status : MessageStatus}
    (ended : status.value = "accepted_by_provider" ∨ status.value = "permanently_rejected") :
    status.Terminal := by
  cases status <;> revert ended <;> decide

namespace Fleet
variable {D : Deployment} {s t u : Fleet} {l : Label} {now later : Time} {act : Action}

theorem continues_of_step (h : step D s l = some t) (recounted : Recounted s.db) (id : Nat) :
    Continues id s.db t.db := by
  obtain ⟨u, advanced, rfl⟩ := Option.map_eq_some_iff.mp h
  by_cases tells : l.action.tells = false
  · exact (chapter_of_silent advanced tells id).continues (recounted.absent id)
  generalize l.action = act at advanced tells
  cases acts_of_advance D advanced with
  | ingest => exact (chapter_of_ingest ..).continues (recounted.absent id)
  | @deliver w fails messageId rest turn =>
      unfold Fleet.deliver
      cases run : openDelivery D.margin fails s.db messageId _ _ with
      | error e => exact .of_timeline rfl
      | ok opened => exact continues_of_openDelivery run id
  | record turn => exact continues_of_recordOutcome ..
  | _ => exact absurd rfl tells

theorem step_recounted (h : step D s l = some t) (recounted : Recounted s.db) :
    Recounted t.db where
  absent id absent := by
    rw [(continues_of_step h recounted id).silent absent]
    refine recounted.absent id ?_
    obtain ⟨u, e, rfl⟩ := effect_of_step D h
    cases found : s.db.messages.find? id with
    | none => rfl
    | some m =>
        obtain ⟨m', stays, _⟩ := e.header found
        cases absent.symm.trans stays
  numbered id := (continues_of_step h recounted id).numbered (recounted.numbered id)

/-- No message and no event yet, and no worker alive. -/
structure Blank (s : Fleet) : Prop extends Initial s where
  events : s.db.events.rows = []

theorem Blank.recounted {allowed : Fleet → Label → Prop} (blank : s.Blank)
    (run : Reaches (step D) allowed s t) : Recounted t.db := by
  have nothing (id : Nat) : s.db.timeline id = [] := by
    rw [Database.timeline, blank.events]
    rfl
  refine run.invariant (I := fun u => Recounted u.db)
    ⟨fun id _ => nothing id, fun id => ?_⟩ fun _ _ _ _ h => step_recounted h
  rw [Database.Numbered, nothing]
  rfl

theorem RowChange.shown {m m' : Message} (c : RowChange D s now later act m m') :
    SameShown m m' := by
  refine ⟨c.header, c.letter.id, ?_, ?_⟩
  · cases c with
    | recorded => exact Recording.row_createdAt _ m
    | _ => rfl
  · cases c with
    | recorded => exact Nat.le_of_eq (Recording.row_spec _ m).2.attempts.symm
    | stamped => exact Nat.le_succ _
    | _ => exact Nat.le_refl _

/-- A query that finds one message finds the same one after a step. -/
theorem Effect.emailsNamed (e : Effect D s now later act t) {projectId : Nat} {emailId : String}
    {m : Message} (only : s.db.emailsNamed projectId emailId = [m]) :
    ∃ m', t.db.emailsNamed projectId emailId = [m'] ∧ SameShown m m' ∧
      t.db.messages.find? m.id = some m' := by
  have single := Table.filter_eq_singleton.mp only
  have passes : m.publicId = emailId ∧ m.projectId = projectId := by simpa using single.1.2
  have found := Table.find?_of_mem single.1.1
  obtain ⟨m', after, shown⟩ : ∃ m', t.db.messages.find? m.id = some m' ∧ SameShown m m' := by
    cases e.row m.id with
    | same eq => exact ⟨m, eq.trans found, .refl m⟩
    | changed before after change =>
        obtain rfl := Option.some.inj (before.symm.trans found)
        exact ⟨_, after, change.shown⟩
    | new _ before =>
        rw [before] at found
        cases found
  refine ⟨m', Table.filter_eq_singleton.mpr ⟨⟨Table.mem_of_find? after, ?_⟩, ?_⟩, shown, after⟩
  · simp [shown.publicId, shown.projectId, passes]
  · intro other mem named
    have named : other.publicId = emailId ∧ other.projectId = projectId := by simpa using named
    have there := Table.find?_of_mem mem
    have old (row : Message) (found : s.db.messages.find? other.id = some row)
        (same : SameHeader row other) : other = m' := by
      have again : row = m := single.2 row (Table.mem_of_find? found) (by
        simp [← same.publicId, ← same.projectId, named])
      have id : m.id = other.id := by
        rw [← again]
        exact Table.key_of_find? found
      exact Option.some.inj (there.symm.trans (id ▸ after))
    cases e.row other.id with
    | same eq => exact old other (eq.symm.trans there) (.refl other)
    | changed before after change =>
        obtain rfl := Option.some.inj (after.symm.trans there)
        exact old _ before change.header
    | new _ _ after stored =>
        obtain rfl := Option.some.inj (after.symm.trans there)
        have admitted := stored.stored.admitted
        simp only [Database.admits, Bool.and_eq_true, List.all_eq_true,
          decide_eq_true_eq] at admitted
        exact absurd (passes.1.trans named.1.symm) (admitted.2 m single.1.1)

/-- A message that has ended stays as it is but for its body, and nothing more is told of it. -/
theorem step_ended (h : step D s l = some t) (custody : Custody s) {projectId : Nat}
    {emailId : String} {m : Message} (only : s.db.emailsNamed projectId emailId = [m])
    (terminal : m.status.Terminal) :
    ∃ m', t.db.emailsNamed projectId emailId = [m'] ∧ m'.withoutBody = m.withoutBody ∧
      t.db.timeline m.id = s.db.timeline m.id := by
  have found := Table.find?_of_mem (Table.filter_eq_singleton.mp only).1.1
  have kept : t.db.timeline m.id = s.db.timeline m.id := by
    cases chapter_of_step custody h m.id with
    | aside timeline => exact timeline
    | new absent =>
        rw [absent] at found
        cases found
    | goesOn found' _ sending =>
        rw [found, Option.some.injEq] at found'
        rw [← found'] at sending
        exact absurd sending terminal.ne_sending
  obtain ⟨u, e, rfl⟩ := effect_of_step D h
  obtain ⟨m', only', _, after⟩ := e.emailsNamed only
  refine ⟨m', only', ?_, kept⟩
  cases e.row m.id with
  | same eq =>
      rw [eq, found, Option.some.injEq] at after
      rw [after]
  | changed before stored change =>
      obtain rfl := Option.some.inj (before.symm.trans found)
      obtain rfl := Option.some.inj (stored.symm.trans after)
      rw [change.of_terminal custody found terminal]
      rfl
  | new _ before =>
      rw [before] at found
      cases found

/-! Runs. -/

section Runs
variable {occurredAt : Nat × Nat → Time} {rt : Runtime} {principal : Principal}
  {emailId : String} {v : MessageView}

/-- While every reaping takes back abandoned messages only: a message that a caller has been
shown is shown to it at every later point, as the same letter, with the events that it has been
shown and after them those that have come since. -/
theorem email_goes_on (blank : s.Blank) (run : Reaches (step D) ReapsAbandoned s t)
    (more : Reaches (step D) ReapsAbandoned t u)
    (shown : getEmail occurredAt rt t.db principal emailId = .found v) :
    ∃ later, getEmail occurredAt rt u.db principal emailId = .found later ∧ v.GoesOn later := by
  obtain ⟨m, only, rfl⟩ := getEmail_eq_found.mp shown
  have recounted := blank.recounted run
  obtain ⟨m', only', same, story, recounted'⟩ : ∃ m',
      u.db.emailsNamed principal.projectId emailId = [m'] ∧ SameShown m m' ∧
        t.db.story m.id <+: u.db.story m.id ∧ Recounted u.db := by
    refine more.invariant (I := fun u => ∃ m',
      u.db.emailsNamed principal.projectId emailId = [m'] ∧ SameShown m m' ∧
        t.db.story m.id <+: u.db.story m.id ∧ Recounted u.db)
      ⟨m, only, .refl m, List.prefix_refl _, recounted⟩ ?_
    rintro x l y - h ⟨m', only', same, story, recounted⟩
    have goes := continues_of_step h recounted m.id
    have recounted' := step_recounted h recounted
    obtain ⟨w, e, rfl⟩ := effect_of_step D h
    obtain ⟨m'', only'', same', _⟩ := e.emailsNamed only'
    exact ⟨m'', only'', same.trans same', story.trans goes.story, recounted'⟩
  exact ⟨_, getEmail_eq_found.mpr ⟨m', only', rfl⟩,
    same.goesOn occurredAt recounted recounted' story⟩

/-- While every reaping takes back abandoned messages only: once a caller has been shown that a
message was accepted or rejected, every later answer is the same, to the last event. -/
theorem ended_email_stays (start : s.Initial) (run : Reaches (step D) ReapsAbandoned s t)
    (more : Reaches (step D) ReapsAbandoned t u)
    (shown : getEmail occurredAt rt t.db principal emailId = .found v)
    (ended : v.status = "accepted_by_provider" ∨ v.status = "permanently_rejected") :
    getEmail occurredAt rt u.db principal emailId = .found v := by
  have custody : Custody t := run.invariant start.custody fun _ _ _ careful h =>
    step_custody h careful
  obtain ⟨m, only, rfl⟩ := getEmail_eq_found.mp shown
  have terminal : m.status.Terminal := MessageStatus.terminal_of_value ended
  obtain ⟨-, m', only', row, timeline⟩ : Custody u ∧ ∃ m',
      u.db.emailsNamed principal.projectId emailId = [m'] ∧ m'.withoutBody = m.withoutBody ∧
        u.db.timeline m.id = t.db.timeline m.id := by
    refine more.invariant (I := fun u => Custody u ∧ ∃ m',
      u.db.emailsNamed principal.projectId emailId = [m'] ∧ m'.withoutBody = m.withoutBody ∧
        u.db.timeline m.id = t.db.timeline m.id) ⟨custody, m, only, rfl, rfl⟩ ?_
    rintro x l y careful h ⟨custody, m', only', row, timeline⟩
    obtain ⟨id, _, _, status⟩ := Message.columns_eq row
    obtain ⟨m'', only'', row', kept⟩ := step_ended h custody only' (by rwa [status])
    rw [id] at kept
    exact ⟨step_custody h careful custody, m'', only'', row'.trans row, kept.trans timeline⟩
  refine getEmail_eq_found.mpr ⟨m', only', ?_⟩
  rw [(Message.columns_eq row).1, timeline, Message.shown_withoutBody, row,
    ← Message.shown_withoutBody]

end Runs
end Fleet

/-! The letter that is put off and then sent, and the one that was accepted at once. -/
namespace Sample
open Fleet

def askFor (emailId : String) (s : Fleet) : EmailResponse :=
  getEmail (fun _ => 0) runtime s.db (principal mailbox) emailId

def statusOf : EmailResponse → Option String
  | .found v => some v.status
  | _ => none

theorem found_of_status {response : EmailResponse} {status : String}
    (told : statusOf response = some status) : ∃ v, response = .found v ∧ v.status = status := by
  cases response with
  | found v => exact ⟨v, rfl, Option.some.inj told⟩
  | notFound | failed => cases told

theorem fleet_blank (mailbox : Mailbox) : (fleet mailbox).Blank :=
  ⟨fleet_initial mailbox, rfl⟩

/-- The provider puts the letter off once. -/
def putOff : Fleet := final (step deployment) (fleet mailbox) [
  accept mailbox 1 "ann@example.net" [], now (.start "A"), claimBy "A" [1],
  now (.deliver "A" false), now (.send "A"),
  recordBy "A" (smtpSend ["ann@example.net"] (.responseException 451 "try again later"))]

def sentAtLast : Fleet := final (step deployment) putOff [
  after 30 (.claim "A" (fun _ => false) [1]), now (.deliver "A" false), now (.send "A"),
  recordBy "A" (accepted ["ann@example.net"])]

end Sample

theorem letter_put_off_goes_on :
    ∃ v later, Sample.askFor "email_1" Sample.putOff = .found v ∧
      Sample.askFor "email_1" Sample.sentAtLast = .found later ∧
      v.status = "temporarily_failed" ∧ later.status = "accepted_by_provider" ∧
      v.GoesOn later := by
  have first : Reaches (Fleet.step Sample.deployment) Fleet.ReapsAbandoned
      (Sample.fleet Sample.mailbox) Sample.putOff ∧
        Sample.statusOf (Sample.askFor "email_1" Sample.putOff) = some "temporarily_failed" :=
    reaches_final (fun s => Sample.statusOf (Sample.askFor "email_1" s)) (by decide +kernel)
      (by simp [Fleet.ReapsAbandoned, Sample.now, Sample.accept, Sample.claimBy, Sample.recordBy])
  have second : Reaches (Fleet.step Sample.deployment) Fleet.ReapsAbandoned Sample.putOff
      Sample.sentAtLast ∧
        Sample.statusOf (Sample.askFor "email_1" Sample.sentAtLast) = some "accepted_by_provider" :=
    reaches_final (fun s => Sample.statusOf (Sample.askFor "email_1" s)) (by decide +kernel)
      (by simp [Fleet.ReapsAbandoned, Sample.now, Sample.after, Sample.recordBy])
  obtain ⟨v, shown, deferred⟩ := Sample.found_of_status first.2
  obtain ⟨later, shown', goesOn⟩ :=
    Fleet.email_goes_on (Sample.fleet_blank _) first.1 second.1 shown
  obtain ⟨v', again, accepted⟩ := Sample.found_of_status second.2
  obtain rfl := EmailResponse.found.inj (again.symm.trans shown')
  exact ⟨v, v', shown, shown', deferred, accepted, goesOn⟩

theorem delivered_letter_stays :
    ∃ v, Sample.askFor "email_1" Sample.delivered = .found v ∧
      v.status = "accepted_by_provider" ∧ Sample.askFor "email_1" Sample.quiet = .found v := by
  have first : Reaches (Fleet.step Sample.deployment) Fleet.ReapsAbandoned
      (Sample.fleet Sample.mailbox) Sample.delivered ∧
        Sample.statusOf (Sample.askFor "email_1" Sample.delivered) = some "accepted_by_provider" :=
    reaches_final (fun s => Sample.statusOf (Sample.askFor "email_1" s)) (by decide +kernel)
      (by simp [Fleet.ReapsAbandoned, Sample.now, Sample.accept, Sample.claimBy, Sample.recordBy])
  have second : Reaches (Fleet.step Sample.deployment) Fleet.ReapsAbandoned Sample.delivered
      Sample.quiet ∧ Sample.look 1 Sample.quiet = (some .acceptedByProvider, 1) :=
    reaches_final (Sample.look 1) (by decide +kernel)
      (by simp [Fleet.ReapsAbandoned, Sample.now, Sample.after, Sample.claimBy])
  obtain ⟨v, shown, accepted⟩ := Sample.found_of_status first.2
  exact ⟨v, shown, accepted,
    Fleet.ended_email_stays (Sample.fleet_initial _) first.1 second.1 shown (.inl accepted)⟩

end Emaild
