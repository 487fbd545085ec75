import Emaild.Fleet.Lifecycle

/-!
The timeline of a message and its row. They are written in the same transactions: what
the events of a message tell of its attempts and of its end is what its row says, after
every step of a run of one worker at a time.
-/
namespace Emaild
open Relational

/-- The number of the attempt that an event records. -/
def EventDetail.attempt? : EventDetail → Option Nat
  | .attempt n _ => some n
  | _ => none

namespace Story

/-- How many events of a type there are. -/
def told (type : String) (story : List (String × EventDetail)) : Nat :=
  story.countP fun e => e.1 = type

/-- What the attempts record. -/
def attempts (story : List (String × EventDetail)) : List (Option Nat) :=
  (story.filter fun e => e.1 = "delivery.attempt").map fun e => e.2.attempt?

/-- An event that ends a message. -/
def Final (e : String × EventDetail) : Prop :=
  e.1 = "provider.accepted" ∨ e.1 = "delivery.failed"

/-- An event of a message on its way. -/
def Underway (e : String × EventDetail) : Prop :=
  e.1 = "delivery.attempt" ∨ e.1 = "delivery.deferred" ∨ e.1 = "delivery.rate_gated"

/-- Nothing is underway after the end. -/
def Closed (story : List (String × EventDetail)) : Prop :=
  story.Pairwise fun e later => Final e → ¬ Underway later

variable {a b : List (String × EventDetail)}

theorem told_append (type : String) : told type (a ++ b) = told type a + told type b :=
  List.countP_append

theorem attempts_append : attempts (a ++ b) = attempts a ++ attempts b := by
  rw [attempts, List.filter_append, List.map_append, attempts, attempts]

theorem not_final_of_told (accepted : told "provider.accepted" a = 0)
    (failed : told "delivery.failed" a = 0) : ∀ e ∈ a, ¬ Final e := by
  rintro e mem (final | final)
  · exact List.countP_eq_zero.mp accepted e mem (decide_eq_true final)
  · exact List.countP_eq_zero.mp failed e mem (decide_eq_true final)

/-- Events of one type that is none of those which are counted. -/
theorem told_of_forall {type other : String} (all : ∀ e ∈ a, e.1 = other) (ne : other ≠ type) :
    told type a = 0 :=
  List.countP_eq_zero.mpr fun e mem => by simp [all e mem, ne]

theorem attempts_of_forall {other : String} (all : ∀ e ∈ a, e.1 = other)
    (ne : other ≠ "delivery.attempt") : attempts a = [] := by
  rw [attempts, List.filter_eq_nil_iff.mpr fun e mem => by simp [all e mem, ne]]
  rfl

end Story

/-- What a row says that its timeline tells. -/
structure Told (m : Message) (story : List (String × EventDetail)) : Prop where
  attempts : Story.attempts story = (List.range' 1 m.attempts).map some
  accepted : Story.told "provider.accepted" story =
    if m.status = .acceptedByProvider then 1 else 0
  rejected : Story.told "delivery.failed" story =
    if m.status = .permanentlyRejected then 1 else 0
  closed : Story.Closed story

/-- What a step adds to the timeline of a message that has not ended. -/
structure GoesOn (m m' : Message) (news : List (String × EventDetail)) : Prop where
  attempts : (List.range' 1 m.attempts).map some ++ Story.attempts news =
    (List.range' 1 m'.attempts).map some
  accepted : Story.told "provider.accepted" news =
    if m'.status = .acceptedByProvider then 1 else 0
  rejected : Story.told "delivery.failed" news =
    if m'.status = .permanentlyRejected then 1 else 0
  closed : Story.Closed news

theorem Told.goOn {m m' : Message} {story news : List (String × EventDetail)} (told : Told m story)
    (sending : m.status = .sending) (goes : GoesOn m m' news) : Told m' (story ++ news) := by
  have accepted : Story.told "provider.accepted" story = 0 := by
    rw [told.accepted, sending, if_neg nofun]
  have rejected : Story.told "delivery.failed" story = 0 := by
    rw [told.rejected, sending, if_neg nofun]
  refine ⟨?_, ?_, ?_, List.pairwise_append.mpr ⟨told.closed, goes.closed, ?_⟩⟩
  · rw [Story.attempts_append, told.attempts, goes.attempts]
  · rw [Story.told_append, accepted, Nat.zero_add, goes.accepted]
  · rw [Story.told_append, rejected, Nat.zero_add, goes.rejected]
  · exact fun e mem _ _ final => absurd final (Story.not_final_of_told accepted rejected e mem)

/-- What a timeline tells of. -/
def Message.tally (m : Message) : Nat × Bool × Bool :=
  (m.attempts, m.status = .acceptedByProvider, m.status = .permanentlyRejected)

theorem Told.congr {m m' : Message} {story : List (String × EventDetail)} (told : Told m story)
    (same : m'.tally = m.tally) : Told m' story := by
  simp only [Message.tally, Prod.mk.injEq, decide_eq_decide] at same
  obtain ⟨attempts, accepted, rejected⟩ := same
  refine ⟨by rw [attempts]; exact told.attempts, ?_, ?_, told.closed⟩
  · rw [told.accepted]
    simp only [accepted]
  · rw [told.rejected]
    simp only [rejected]

/-- A message and its timeline over a step: as they were, new, or one transaction further. -/
inductive Chapter (id : Nat) (before after : Database) : Prop
  | aside (timeline : after.timeline id = before.timeline id)
      (rows : (after.messages.find? id).map Message.tally =
        (before.messages.find? id).map Message.tally)
  | new {m : Message} {principal : Principal} {domainName : String}
      (absent : before.messages.find? id = none) (stored : after.messages.find? id = some m)
      (timeline : after.timeline id = before.timeline id ++ openingEvents principal m domainName)
      (fresh : m.status = .queued ∧ m.attempts = 0)
  | goesOn {m m' : Message} {news : List (String × EventDetail)}
      (found : before.messages.find? id = some m) (stored : after.messages.find? id = some m')
      (sending : m.status = .sending) (tells : Tells id news before after)
      (goes : GoesOn m m' news)

/-- A transaction of a worker on one message. -/
theorem chapter_of_rewrites {id : Nat} {f : Message → Message} {m : Message}
    {news : List (String × EventDetail)} {before after : Database}
    (found : before.messages.find? id = some m) (sending : m.status = .sending)
    (rewrites : Rewrites id f before after) (tells : Tells id news before after)
    (goes : GoesOn m (f m) news) (id' : Nat) : Chapter id' before after := by
  by_cases here : id' = id
  · subst here
    exact .goesOn found (rewrites.self found) sending tells goes
  · exact .aside (tells.others id' here) (by rw [rewrites.other here])

/-! The first transaction of a delivery. -/

theorem goesOn_single {m m' : Message} {type : String} {d : EventDetail}
    (attempts : (List.range' 1 m.attempts).map some ++ Story.attempts [(type, d)] =
      (List.range' 1 m'.attempts).map some)
    (accepted : type = "provider.accepted" ↔ m'.status = .acceptedByProvider)
    (rejected : type = "delivery.failed" ↔ m'.status = .permanentlyRejected) :
    GoesOn m m' [(type, d)] := by
  refine ⟨attempts, ?_, ?_, List.pairwise_singleton _ _⟩
  · simp [Story.told, List.countP_cons, accepted]
  · simp [Story.told, List.countP_cons, rejected]

theorem tells_written (db : Database) (id : Nat) (f : Message → Message)
    (hf : ∀ m, (f m).id = m.id) (type : String) (d : EventDetail) :
    Tells id [(type, d)] db ((db.setMessage id f hf).emit id type d) := by
  have written : Tells id [] db (db.setMessage id f hf) := .nothing rfl
  exact written.trans (.emit _ id type d)

theorem chapter_of_openDelivery {margin : SafetyMargin} {adapterFails : Bool} {db db' : Database}
    {id : Nat} {now later : Time} {opening : Opening}
    (h : openDelivery margin adapterFails db id now later = .ok (opening, db'))
    (sending : ∀ m, db.messages.find? id = some m → m.status = .sending) (id' : Nat) :
    Chapter id' db db' := by
  unfold openDelivery at h
  split at h
  · cases h
    exact .aside rfl rfl
  · rename_i m mailbox domain row
    have found := (deliveryRow_eq_some.mp row).1
    obtain rfl : m.id = id := Table.key_of_find? found
    have writes := fun (f : Message → Message) (hf : ∀ m, (f m).id = m.id) type d goes =>
      chapter_of_rewrites found (sending m found) (rewrites_emit db m.id f hf type d)
        (tells_written db m.id f hf type d) goes id'
    dsimp only at h
    split at h
    · cases h
      refine writes _ _ _ _ (goesOn_single (List.append_nil _) ?_ ?_)
      · simp [Message.hold]
      · simp [Message.hold]
    · split at h
      · cases h
        refine writes _ _ _ _ (goesOn_single (List.append_nil _) ?_ ?_)
        · simp [Message.failPermanently]
        · simp [Message.failPermanently]
      · split at h
        · cases h
        · cases h
          refine writes _ _ _ _ (goesOn_single ?_ ?_ ?_)
          · rw [show (m.stamp later).attempts = m.attempts + 1 from rfl, List.range'_1_concat,
              List.map_append, Nat.add_comm 1]
            rfl
          · simp [Message.stamp, sending m found]
          · simp [Message.stamp, sending m found]

/-! The second transaction. -/

/-- Suppressions may be reported after everything else. -/
theorem GoesOn.report {m m' : Message} {news more : List (String × EventDetail)}
    (goes : GoesOn m m' news) (suppressed : ∀ e ∈ more, e.1 = "recipient.suppressed") :
    GoesOn m m' (news ++ more) := by
  have quiet : ∀ e ∈ more, ¬ Story.Underway e := by
    rintro e mem (type | type | type) <;>
    · rw [suppressed e mem] at type
      exact absurd type (by decide)
  refine ⟨?_, ?_, ?_, List.pairwise_append.mpr ⟨goes.closed, ?_, ?_⟩⟩
  · rw [Story.attempts_append, Story.attempts_of_forall suppressed (by decide), List.append_nil,
      goes.attempts]
  · rw [Story.told_append, Story.told_of_forall suppressed (by decide), goes.accepted, Nat.add_zero]
  · rw [Story.told_append, Story.told_of_forall suppressed (by decide), goes.rejected, Nat.add_zero]
  · exact List.pairwise_of_forall_mem_list fun _ _ e mem _ => quiet e mem
  · exact fun _ _ e mem _ => quiet e mem

theorem goesOn_recorded (r : Recording) (m : Message) : GoesOn m (r.row m) (r.events m) := by
  unfold Recording.row Recording.events outcome
  dsimp only
  split
  · dsimp only [recordSuccess]
    split
    · refine ⟨List.append_nil _, rfl, rfl, ?_⟩
      simp [Story.Closed, Story.Final]
    · exact goesOn_single (List.append_nil _) (by simp) (by simp)
  · dsimp only [applyFailure]
    split
    · exact goesOn_single (List.append_nil _) (by simp) (by simp)
    · exact goesOn_single (List.append_nil _) (by simp) (by simp)

theorem chapter_of_recordOutcome (rt : Runtime) (race : Race) (r : Recording) {db : Database}
    {id : Nat} (sending : ∀ m, db.messages.find? id = some m → m.status = .sending) (id' : Nat) :
    Chapter id' db (sessionScope (recordOutcome rt race id r) db).2 := by
  rcases recordOutcome_tells rt race r id with
    ⟨m, news, found, suppressed, rewrites, tells⟩ | ⟨same, events⟩
  · exact chapter_of_rewrites found (sending m found) rewrites tells
      ((goesOn_recorded r m).report suppressed) id'
  · refine .aside ?_ (by rw [same.messages])
    rw [Database.timeline, events, Database.timeline]

/-! Every step. -/

/-- The steps that add events. -/
def Action.tells : Action → Bool
  | .ingest .. | .deliver .. | .record .. => true
  | _ => false

namespace Fleet
open Transition
variable {D : Deployment} {s t : Fleet} {l : Label} {now later : Time} {act : Action}

theorem events_of_silent (h : advance D s now later act = some t) (silent : act.tells = false) :
    t.db.events = s.db.events := by
  cases acts_of_advance D h with
  | ingest | deliver | record => cases silent
  | start | kill | requestShutdown | stop | raised | claim | release | send | reap | purge |
      changeDomain | setMailboxActive | invalid => rfl
  | @suppress address source reason projectId =>
      obtain ⟨suppressions, only⟩ :=
        @sessionScope_addSuppression D.rt now source reason projectId s.db address
      dsimp only
      rw [only]
  | unsuppress removed =>
      obtain ⟨suppressions, rfl⟩ := removeSuppression_only removed
      rfl

theorem RowChange.tally {m m' : Message} (change : RowChange D s now later act m m')
    (silent : act.tells = false) : m'.tally = m.tally := by
  cases change with
  | claimed idle taken due =>
      simp only [Message.due, Bool.and_eq_true, decide_eq_true_eq] at due
      rcases due.1 with status | status <;> simp [Message.tally, Message.claim, status]
  | released turn sending => simp [Message.tally, Message.release, sending]
  | held | undeliverable | stamped | recorded => cases silent
  | reaped idle stale =>
      simp only [Message.stale, Bool.and_eq_true, decide_eq_true_eq] at stale
      simp [Message.tally, Message.reap, stale.1]
  | purged => rfl

theorem chapter_of_silent (h : advance D s now later act = some t) (silent : act.tells = false)
    (id : Nat) : Chapter id s.db t.db := by
  have timeline : t.db.timeline id = s.db.timeline id := by
    rw [Database.timeline, events_of_silent h silent, Database.timeline]
  cases (effect_of_advance D h).row id with
  | same eq => exact .aside timeline (by rw [eq])
  | changed before after change =>
      refine .aside timeline ?_
      rw [before, after, Option.map_some, Option.map_some, change.tally silent]
  | new ingest =>
      subst ingest
      cases silent

/-- Acceptance adds the first two events of a new message. -/
theorem chapter_of_ingest (rt : Runtime) (hash : List (String × PayloadValue) → String) (ttl : Nat)
    (principal : Principal) (request : SendEmailRequest) (key : Option String) (draw : IngestDraw)
    (now : Time) (db : Database) (id : Nat) : Chapter id db
      (sessionScope (ingestMessage rt hash ttl principal request key draw now) db).2 := by
  have ends := ingestMessage_ends rt hash ttl principal request key draw now db
  dsimp only at ends
  generalize sessionScope (ingestMessage rt hash ttl principal request key draw now) db = run at *
  obtain ⟨result, after⟩ := run
  cases ends with
  | refused => exact .aside rfl rfl
  | replayed => exact .aside rfl rfl
  | @stored displayName identity toList ccList bccList domainName m _ vetted row grows =>
      have timeline : after.timeline id = db.timeline id ++
          (openingEvents principal m domainName).filter fun e => e.messageId = id := by
        rw [Database.timeline, grows.events, List.filter_append, Database.timeline]
      have stored := grows.messages id
      by_cases here : id = m.id
      · subst here
        rw [if_pos rfl] at stored
        have opening : after.timeline m.id =
            db.timeline m.id ++ openingEvents principal m domainName := by
          simpa [openingEvents] using timeline
        refine .new grows.fresh stored opening ?_
        subst row
        exact ⟨rfl, rfl⟩
      · rw [if_neg here] at stored
        refine .aside ?_ (by rw [stored])
        simpa [openingEvents, Ne.symm here] using timeline

theorem chapter_of_step (custody : Custody s) (h : step D s l = some t) (id : Nat) :
    Chapter id s.db t.db := by
  obtain ⟨u, advanced, rfl⟩ := Option.map_eq_some_iff.mp h
  by_cases tells : l.action.tells = false
  · exact chapter_of_silent advanced tells id
  generalize l.action = act at advanced tells
  cases acts_of_advance D advanced with
  | ingest => exact chapter_of_ingest ..
  | @deliver w fails messageId rest turn =>
      unfold Fleet.deliver
      cases run : openDelivery D.margin fails s.db messageId _ _ with
      | error e => exact .aside rfl rfl
      | ok opened =>
          refine chapter_of_openDelivery run (fun m found => ?_) id
          obtain rfl := Table.key_of_find? found
          exact custody.sending_of_turn (congrArg Process.phase turn) (List.mem_cons_self ..) found
  | @record w result latencyMs jitter race a rest turn =>
      refine chapter_of_recordOutcome D.rt race _ (fun m found => ?_) id
      have own := Table.key_of_find? found
      rw [← own] at found
      exact custody.sending_of_turn turn (own ▸ List.mem_cons_self ..) found
  | _ => exact absurd rfl tells

/-- Every message has the timeline that its row says it has, and no other has one. -/
structure Chronicled (db : Database) : Prop where
  absent : ∀ id, db.messages.find? id = none → db.timeline id = []
  told : ∀ id m, db.messages.find? id = some m → db.Numbered id ∧ Told m (db.story id)

theorem Chronicled.chapter {before after : Database} (chronicled : Chronicled before)
    (chapter : ∀ id, Chapter id before after) : Chronicled after := by
  refine ⟨fun id absent => ?_, fun id m' found => ?_⟩
  · cases chapter id with
    | aside timeline rows =>
        rw [absent, Option.map_none, eq_comm, Option.map_eq_none_iff] at rows
        rw [timeline, chronicled.absent id rows]
    | new _ stored | goesOn _ stored =>
        rw [absent] at stored
        cases stored
  · cases chapter id with
    | aside timeline rows =>
        rw [found, Option.map_some, eq_comm, Option.map_eq_some_iff] at rows
        obtain ⟨m, before, same⟩ := rows
        obtain ⟨numbered, told⟩ := chronicled.told id m before
        rw [Database.Numbered, Database.story, timeline]
        exact ⟨numbered, told.congr same.symm⟩
    | new absent stored timeline fresh =>
        obtain rfl := Option.some.inj (stored.symm.trans found)
        rw [Database.Numbered, Database.story, timeline, chronicled.absent id absent]
        exact ⟨rfl, by rw [fresh.2]; rfl, by rw [fresh.1]; rfl, by rw [fresh.1]; rfl,
          by simp [Story.Closed, openingEvents, Story.Final]⟩
    | goesOn before stored sending tells goes =>
        obtain rfl := Option.some.inj (stored.symm.trans found)
        obtain ⟨numbered, told⟩ := chronicled.told id _ before
        exact ⟨tells.numbered numbered, tells.story ▸ told.goOn sending goes⟩

theorem chronicled_of_run (start : s.Initial) (silent : s.db.events.rows = [])
    (run : Reaches (step D) OneAtATime s t) : Chronicled t.db := by
  refine (run.invariant (I := fun u => Orderly u ∧ Chronicled u.db)
    ⟨start.orderly, fun id _ => ?_, fun id m found => ?_⟩ ?_).2
  · rw [Database.timeline, silent]
    rfl
  · rw [start.messages id] at found
    cases found
  · rintro u l v one h ⟨orderly, chronicled⟩
    exact ⟨step_orderly h one orderly, chronicled.chapter (chapter_of_step orderly.custody h)⟩

/-- In every run of one worker at a time, killed and restarted at any point: the events of
a message are numbered from 1 on; its attempts are the ones that its row counts, in order;
it was accepted, or rejected for good, if and only if one event says so; and nothing is
underway after that. -/
theorem timelines_correspond (start : s.Initial) (silent : s.db.events.rows = [])
    (run : Reaches (step D) OneAtATime s t) {id : Nat} {m : Message}
    (found : t.db.messages.find? id = some m) :
    (t.db.timeline id).map Event.sequence = List.range' 1 (t.db.timeline id).length ∧
      Story.attempts (t.db.story id) = (List.range' 1 m.attempts).map some ∧
      (m.status = .acceptedByProvider ↔ Story.told "provider.accepted" (t.db.story id) = 1) ∧
      (m.status = .permanentlyRejected ↔ Story.told "delivery.failed" (t.db.story id) = 1) ∧
      Story.Closed (t.db.story id) := by
  obtain ⟨numbered, told⟩ := (chronicled_of_run start silent run).told id m found
  refine ⟨numbered, told.attempts, ?_, ?_, told.closed⟩
  · rw [told.accepted]
    split <;> simp_all
  · rw [told.rejected]
    split <;> simp_all

end Fleet

/-! The loop of the worker breaks off with a letter on the wire, and the letter is taken up
again. -/
namespace Sample
open Transition Fleet

def resumed : Fleet := final (step deployment) (solo mailbox) [
  accept mailbox 1 "ann@example.net" [], claimBy "A" [1], now (.deliver "A" false),
  now (.send "A"), now (.raised "A"), after 901 (.reap "A"), claimBy "A" [1],
  now (.deliver "A" false), now (.send "A"), recordBy "A" (accepted ["ann@example.net"])]

end Sample

theorem resumed_letter_is_told :
    ∃ m, Sample.resumed.db.messages.find? 1 = some m ∧ m.status = .acceptedByProvider ∧
      (Sample.resumed.db.story 1).map Prod.fst = ["api.accepted", "message.queued",
        "delivery.attempt", "delivery.attempt", "provider.accepted"] ∧
      (Sample.resumed.db.timeline 1).map Event.sequence =
        List.range' 1 (Sample.resumed.db.timeline 1).length ∧
      Story.attempts (Sample.resumed.db.story 1) = (List.range' 1 m.attempts).map some ∧
      (m.status = .acceptedByProvider ↔
        Story.told "provider.accepted" (Sample.resumed.db.story 1) = 1) ∧
      (m.status = .permanentlyRejected ↔
        Story.told "delivery.failed" (Sample.resumed.db.story 1) = 1) ∧
      Story.Closed (Sample.resumed.db.story 1) := by
  obtain ⟨rest, seen⟩ : Transition.Reaches (Fleet.step Sample.deployment) Fleet.OneAtATime
      (Sample.solo Sample.mailbox) Sample.resumed ∧
      ((Sample.resumed.db.messages.find? 1).map Message.status,
        (Sample.resumed.db.story 1).map Prod.fst) = (some .acceptedByProvider, ["api.accepted",
          "message.queued", "delivery.attempt", "delivery.attempt", "provider.accepted"]) :=
    Transition.reaches_final
      (fun s : Fleet => ((s.db.messages.find? 1).map Message.status, (s.db.story 1).map Prod.fst))
      (by decide +kernel) (by simp [Fleet.OneAtATime, Sample.now, Sample.after, Sample.accept,
        Sample.claimBy, Sample.recordBy])
  obtain ⟨status, story⟩ := Prod.mk.inj seen
  obtain ⟨m, found, accepted⟩ := Option.map_eq_some_iff.mp status
  exact ⟨m, found, accepted, story, Fleet.timelines_correspond (Sample.fleet_initial _) rfl
    ((Sample.started (Sample.start_alone _)).trans rest) found⟩

end Emaild
