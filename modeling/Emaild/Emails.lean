import Emaild.Metrics
import Emaild.Recording

/-!
What `GET /v1/emails/{id}` shows: the columns of a message that are served, and its events in
the order of their numbers. No body is served, and a message of another project is not found.
-/
namespace Emaild
open Relational

/-- `EventView`. Times are shown as `isoformat` prints them. -/
structure EventView where
  type : String
  occurredAt : Time
  detail : EventDetail
  deriving DecidableEq

structure MessageView where
  id : String
  status : String
  fromAddress : String
  «to» : List String
  cc : Option (List String)
  bcc : Option (List String)
  subject : Option String
  createdAt : Time
  completedAt : Option Time
  attempts : Nat
  failureClass : Option String
  failureCode : Option Int
  providerResponse : Option String
  events : List EventView
  deriving DecidableEq

inductive EmailResponse
  | found (view : MessageView)
  /-- 404 -/
  | notFound (message : String)
  | failed (error : Raised)
  deriving DecidableEq

/-- `sorted(message.events, key=lambda e: e.sequence)` -/
def eventsInOrder (events : List Event) : List Event :=
  events.insertionSort fun a b => a.sequence ≤ b.sequence

/-- The rows that the query of a caller finds. -/
def Database.emailsNamed (db : Database) (projectId : Nat) (emailId : String) : List Message :=
  db.messages.rows.filter fun m => m.publicId = emailId && m.projectId = projectId

section Email
variable (occurredAt : Nat × Nat → Time) (rt : Runtime)

/-- When an event occurred the database notes by itself. -/
def Event.shown (e : Event) : EventView := ⟨e.eventType, occurredAt e.position, e.detail⟩

def Message.shown (m : Message) (events : List Event) : MessageView where
  id := m.publicId
  status := m.status.value
  fromAddress := m.fromAddress
  «to» := m.toAddresses
  cc := m.ccAddresses.filter (· ≠ [])
  bcc := m.bccAddresses.filter (· ≠ [])
  subject := m.subject
  createdAt := m.createdAt
  completedAt := m.completedAt
  attempts := m.attempts
  failureClass := m.failureClass.map FailureClass.value
  failureCode := m.failureCode
  providerResponse := m.providerResponse
  events := (eventsInOrder events).map (Event.shown occurredAt)

/-- `get_email` -/
def getEmail (db : Database) (principal : Principal) (emailId : String) : EmailResponse :=
  match db.emailsNamed principal.projectId emailId with
  | [] => .notFound s!"No message with id {rt.repr emailId}."
  | [m] => .found (m.shown occurredAt (db.timeline m.id))
  | _ => .failed .multipleResultsFound

variable {occurredAt rt} in
theorem getEmail_eq_found {db : Database} {principal : Principal} {emailId : String}
    {v : MessageView} : getEmail occurredAt rt db principal emailId = .found v ↔
      ∃ m, db.emailsNamed principal.projectId emailId = [m] ∧
        m.shown occurredAt (db.timeline m.id) = v := by
  unfold getEmail
  split
  · rename_i nobody
    rw [nobody]
    constructor
    · intro found
      cases found
    · rintro ⟨m, only, _⟩
      cases only
  · rename_i m only
    rw [only, EmailResponse.found.injEq]
    constructor
    · exact fun shown => ⟨m, rfl, shown⟩
    · rintro ⟨m', same, shown⟩
      rwa [List.singleton_inj.mp same]
  · rename_i many
    constructor
    · intro found
      cases found
    · rintro ⟨m, only, _⟩
      exact absurd only (many m)

end Email

/-! What the answer depends on. -/

/-- A row as it is after a purge at any time. -/
def Message.withoutBody (m : Message) : Message :=
  { m with bodyHtml := none, bodyText := none, bodyPurgedAt := none }

theorem Message.columns_eq {m m' : Message} (same : m'.withoutBody = m.withoutBody) :
    m'.id = m.id ∧ m'.publicId = m.publicId ∧ m'.projectId = m.projectId ∧
      m'.status = m.status :=
  ⟨(congrArg Message.id same :), (congrArg Message.publicId same :),
    (congrArg Message.projectId same :), (congrArg Message.status same :)⟩

theorem Message.shown_withoutBody (occurredAt : Nat × Nat → Time) (m : Message)
    (events : List Event) :
    m.shown occurredAt events = m.withoutBody.shown occurredAt events := rfl

/-- The mail of a project in one store, but for the bodies, is in another. -/
structure MailIn (projectId : Nat) (db other : Database) : Prop where
  rows : ∀ m ∈ db.messages, m.projectId = projectId →
    ∃ m' ∈ other.messages, m'.withoutBody = m.withoutBody
  events : ∀ m ∈ db.messages, m.projectId = projectId →
    ∀ e ∈ db.timeline m.id, e ∈ other.timeline m.id

theorem timeline_nodup (db : Database) (id : Nat) : (db.timeline id).Nodup :=
  (List.Nodup.of_map Event.position db.events.nodup).filter _

/-- The numbers put the events of a message in one order. -/
theorem eventsInOrder_congr {db other : Database} {id : Nat}
    (same : ∀ e, e ∈ db.timeline id ↔ e ∈ other.timeline id) :
    eventsInOrder (db.timeline id) = eventsInOrder (other.timeline id) := by
  have perm : (db.timeline id).Perm (other.timeline id) :=
    (List.perm_ext_iff_of_nodup (timeline_nodup db id) (timeline_nodup other id)).mpr same
  have sorted := List.pairwise_insertionSort fun a b : Event => a.sequence ≤ b.sequence
  refine List.Perm.eq_of_pairwise ?_ (sorted _) (sorted _)
    ((List.perm_insertionSort _ _).trans (perm.trans (List.perm_insertionSort _ _).symm))
  intro a b mem mem' le le'
  have first := Database.mem_timeline.mp ((List.mem_insertionSort _).mp mem)
  have second := Database.mem_timeline.mp ((same b).mpr ((List.mem_insertionSort _).mp mem'))
  exact Table.eq_of_key_eq first.1 second.1
    (Prod.ext (first.2.trans second.2.symm) (Nat.le_antisymm le le'))

section TwoStores
variable {projectId : Nat} {db other : Database} {emailId : String}

theorem mem_emailsNamed {m : Message} : m ∈ db.emailsNamed projectId emailId ↔
    m ∈ db.messages ∧ m.publicId = emailId ∧ m.projectId = projectId := by
  simp [Database.emailsNamed, Table.mem_def]

theorem MailIn.found (there : MailIn projectId db other) {row : Message}
    (found : row ∈ (db.emailsNamed projectId emailId).map Message.withoutBody) :
    row ∈ (other.emailsNamed projectId emailId).map Message.withoutBody := by
  obtain ⟨m, mem, rfl⟩ := List.mem_map.mp found
  obtain ⟨stored, named, own⟩ := mem_emailsNamed.mp mem
  obtain ⟨m', stored', same⟩ := there.rows m stored own
  obtain ⟨_, publicId, project, _⟩ := Message.columns_eq same
  exact List.mem_map.mpr
    ⟨m', mem_emailsNamed.mpr ⟨stored', publicId.trans named, project.trans own⟩, same⟩

variable (db projectId emailId) in
theorem emailsNamed_nodup :
    ((db.emailsNamed projectId emailId).map Message.withoutBody).Nodup := by
  refine List.Nodup.of_map Message.id ?_
  rw [List.map_map]
  exact Table.nodup_keys db.messages _

/-- Of a row that both stores have, both show the same. -/
theorem MailIn.shown_eq (occurredAt : Nat × Nat → Time) (there : MailIn projectId db other)
    (back : MailIn projectId other db) {m m' : Message}
    (mem : m ∈ db.emailsNamed projectId emailId) (mem' : m' ∈ other.emailsNamed projectId emailId)
    (same : m.withoutBody = m'.withoutBody) :
    m.shown occurredAt (db.timeline m.id) = m'.shown occurredAt (other.timeline m'.id) := by
  obtain ⟨stored, _, own⟩ := mem_emailsNamed.mp mem
  obtain ⟨stored', _, own'⟩ := mem_emailsNamed.mp mem'
  have id : m.id = m'.id := (Message.columns_eq same.symm).1.symm
  have events : eventsInOrder (db.timeline m.id) = eventsInOrder (other.timeline m.id) :=
    eventsInOrder_congr fun e => ⟨there.events m stored own e,
      fun told => id ▸ back.events m' stored' own' e (id ▸ told)⟩
  have columns : m.shown occurredAt (db.timeline m.id) =
      m'.shown occurredAt (db.timeline m.id) := by
    rw [Message.shown_withoutBody, same, ← Message.shown_withoutBody]
  rw [columns, ← id, Message.shown, events, Message.shown]

/-- The answer to a caller depends on the mail of its own project only, and on none of the
bodies: whatever other projects have sent, every identifier is answered alike. -/
theorem getEmail_congr (occurredAt : Nat × Nat → Time) (rt : Runtime) (principal : Principal)
    (there : MailIn principal.projectId db other) (back : MailIn principal.projectId other db)
    (emailId : String) :
    getEmail occurredAt rt db principal emailId =
      getEmail occurredAt rt other principal emailId := by
  have perm : ((db.emailsNamed principal.projectId emailId).map Message.withoutBody).Perm
      ((other.emailsNamed principal.projectId emailId).map Message.withoutBody) :=
    (List.perm_ext_iff_of_nodup (emailsNamed_nodup ..) (emailsNamed_nodup ..)).mpr
      fun _ => ⟨there.found, back.found⟩
  have length := perm.length_eq
  rw [List.length_map, List.length_map] at length
  unfold getEmail
  cases here : db.emailsNamed principal.projectId emailId with
  | nil =>
      rw [here] at length
      rw [List.eq_nil_of_length_eq_zero length.symm]
  | cons m rest =>
      rw [here] at length perm
      cases rest with
      | nil =>
          obtain ⟨m', away⟩ := List.length_eq_one_iff.mp length.symm
          rw [away] at perm ⊢
          exact congrArg EmailResponse.found (there.shown_eq occurredAt back
            (here ▸ List.mem_singleton_self m) (away ▸ List.mem_singleton_self m')
            (List.singleton_inj.mp (List.perm_singleton.mp perm)))
      | cons second rest =>
          cases away : other.emailsNamed principal.projectId emailId with
          | nil => simp [away] at length
          | cons m' rest' =>
              cases rest' with
              | nil => simp [away] at length
              | cons second' rest' => rfl

/-- A message of another project makes no difference. -/
theorem mailIn_insert {m : Message} (free : db.messages.find? m.id = none)
    (foreign : m.projectId ≠ projectId) :
    MailIn projectId db { db with messages := db.messages.insert m free } ∧
      MailIn projectId { db with messages := db.messages.insert m free } db := by
  refine ⟨⟨fun m' mem _ => ⟨m', (Table.mem_insert_iff db.messages m free m').mpr (.inl mem), rfl⟩,
    fun _ _ _ _ told => told⟩, ⟨fun m' mem own => ?_, fun _ _ _ _ told => told⟩⟩
  rcases (Table.mem_insert_iff db.messages m free m').mp mem with old | new
  · exact ⟨m', old, rfl⟩
  · exact absurd (new ▸ own) foreign

end TwoStores

/-! A letter of the blog, asked for with the key of the shop. -/
namespace Sample

def blogInFlight : Message := { inFlight with id := 2, publicId := "email_B", projectId := 2 }

theorem blogInFlight_free : storeInFlight.messages.find? blogInFlight.id = none := by decide

def bothInFlight : Database :=
  { storeInFlight with messages := storeInFlight.messages.insert blogInFlight blogInFlight_free }

end Sample

theorem letter_of_the_blog_is_not_found :
    getEmail (fun _ => 0) Sample.runtime Sample.bothInFlight (Sample.principal Sample.mailbox)
      "email_B" = .notFound "No message with id 'email_B'." := by
  have mail := mailIn_insert Sample.blogInFlight_free
    (show Sample.blogInFlight.projectId ≠ (Sample.principal Sample.mailbox).projectId by decide)
  rw [Sample.bothInFlight, ← getEmail_congr (fun _ => 0) Sample.runtime
    (Sample.principal Sample.mailbox) mail.1 mail.2 "email_B"]
  decide

end Emaild
