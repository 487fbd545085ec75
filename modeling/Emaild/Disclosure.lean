import Emaild.Ingest
import Emaild.Metrics

/-!
What a project learns from its metrics about the messages of the others. The counts, the
latencies, the domains and the failures are its own. The queue block is not, and whether
a sender identity that it does not use is listed depends on whether others do.
-/
namespace Emaild
open Relational

/-- The store with other messages. -/
def Database.withMessages (db : Database) (messages : Table Message.id) : Database :=
  { db with messages := messages }

@[simp] theorem withMessages_messages (db : Database) (messages : Table Message.id) :
    (db.withMessages messages).messages = messages := rfl

/-- The messages of the project are the same. -/
def SameOwn (projectId : Nat) (messages messages' : Table Message.id) : Prop :=
  ∀ m, m.projectId = projectId → (m ∈ messages ↔ m ∈ messages')

/-- The messages of the other projects that pass a test are as many. -/
def SameCount (projectId : Nat) (messages messages' : Table Message.id) (p : Message → Bool) :
    Prop :=
  messages.count (fun m => m.projectId ≠ projectId && p m) =
    messages'.count fun m => m.projectId ≠ projectId && p m

instance (projectId : Nat) (messages messages' : Table Message.id) (p : Message → Bool) :
    Decidable (SameCount projectId messages messages' p) := inferInstanceAs (Decidable (_ = _))

/-- A pending message of another project is at least as old. -/
def OlderElsewhere (projectId : Nat) (messages : Table Message.id) (now : Time)
    (age : Int) : Prop :=
  ∃ m ∈ messages, m.projectId ≠ projectId ∧ m.status.Pending ∧ age ≤ m.age now

/-- Some mailbox of the sender identity has made no attempts for other projects. -/
def IdleElsewhere (projectId : Nat) (db : Database) (messages : Table Message.id) (cutoff : Time)
    (sender : String × Nat) : Prop :=
  ∃ mailbox ∈ db.mailboxes, senderOf mailbox = sender ∧
    ∀ m ∈ messages, m.projectId ≠ projectId → m.counted mailbox.id cutoff = false

/-- The project has made attempts with the sender identity. -/
def UsesSender (projectId : Nat) (db : Database) (messages : Table Message.id) (cutoff : Time)
    (sender : String × Nat) : Prop :=
  ∃ mailbox ∈ db.mailboxes, senderOf mailbox = sender ∧
    ∃ m ∈ messages, m.projectId = projectId ∧ m.counted mailbox.id cutoff = true

/-- The messages of the other projects look the same from this one: as many are pending,
in flight and flagged, the oldest is as old where that is older than its own, and the
same sender identities that it does not use are idle. -/
structure LooksSame (projectId : Nat) (db : Database) (messages messages' : Table Message.id)
    (clock : Readings) : Prop where
  pending : SameCount projectId messages messages' fun m => m.status.Pending
  sending : SameCount projectId messages messages' fun m => m.status = .sending
  needsReview : SameCount projectId messages messages' Message.needsReview
  oldest : ∀ age, (∀ m ∈ messages, m.projectId = projectId → m.status.Pending →
      m.age clock.queue < age) →
    (OlderElsewhere projectId messages clock.queue age ↔
      OlderElsewhere projectId messages' clock.queue age)
  senders : ∀ mailbox ∈ db.mailboxes,
    ¬ UsesSender projectId db messages (clock.headroom - window) (senderOf mailbox) →
    (IdleElsewhere projectId db messages (clock.headroom - window) (senderOf mailbox) ↔
      IdleElsewhere projectId db messages' (clock.headroom - window) (senderOf mailbox))

section TwoStores
variable {projectId : Nat} {db : Database} {messages messages' : Table Message.id}
  {cutoff now : Time}

/-- The rows of the project, up to their order. -/
theorem SameOwn.filter_perm (same : SameOwn projectId messages messages') (p : Message → Bool) :
    (messages.rows.filter fun m => p m && m.projectId = projectId).Perm
      (messages'.rows.filter fun m => p m && m.projectId = projectId) := by
  refine (List.perm_ext_iff_of_nodup (messages.nodup.of_map.filter _)
    (messages'.nodup.of_map.filter _)).mpr fun m => ?_
  simp only [List.mem_filter, Bool.and_eq_true, decide_eq_true_eq]
  constructor
  · rintro ⟨mem, passes, own⟩
    exact ⟨(same m own).mp mem, passes, own⟩
  · rintro ⟨mem, passes, own⟩
    exact ⟨(same m own).mpr mem, passes, own⟩

variable (db) in
theorem SameOwn.recent_perm (same : SameOwn projectId messages messages') (cutoff : Time) :
    (recentMessages (db.withMessages messages) cutoff (some projectId)).Perm
      (recentMessages (db.withMessages messages') cutoff (some projectId)) := by
  have rows := same.filter_perm fun m => cutoff ≤ m.createdAt
  simpa only [recentMessages, Database.withMessages, Option.all_some] using rows

theorem Volume.of_perm {rows rows' : List Message} (same : rows.Perm rows') :
    Volume.of rows = Volume.of rows' := by
  simp only [Volume.of, same.length_eq, same.countP_eq]

variable (db) in
theorem SameOwn.volumeBy_perm (same : SameOwn projectId messages messages')
    (label : Message → Option String) (cutoff : Time) :
    (volumeBy label (db.withMessages messages) cutoff (some projectId)).Perm
      (volumeBy label (db.withMessages messages') cutoff (some projectId)) := by
  refine groupBy_perm ((same.recent_perm db cutoff).filterMap _) fun name rows rows' perm => ?_
  rw [Volume.of_perm (perm.map _)]

variable (db) in
theorem SameOwn.providerLatency_eq (same : SameOwn projectId messages messages') (cutoff : Time) :
    providerLatency (db.withMessages messages) cutoff (some projectId) =
      providerLatency (db.withMessages messages') cutoff (some projectId) := by
  have samples := (same.recent_perm db cutoff).filterMap Message.providerLatencyMs
  have sorted : ∀ l l' : List Nat, l.Perm l' →
      l.insertionSort (· ≤ ·) = l'.insertionSort (· ≤ ·) := fun l l' perm =>
    List.Perm.eq_of_pairwise' (r := (· ≤ ·)) (List.pairwise_insertionSort _ l)
      (List.pairwise_insertionSort _ l')
      ((List.perm_insertionSort _ l).trans (perm.trans (List.perm_insertionSort _ l').symm))
  simp only [providerLatency, sorted _ _ samples, samples.length_eq]

variable (db) in
theorem SameOwn.failuresByClass_eq (same : SameOwn projectId messages messages') (cutoff : Time) :
    failuresByClass (db.withMessages messages) cutoff (some projectId) =
      failuresByClass (db.withMessages messages') cutoff (some projectId) := by
  have rows := same.recent_perm db cutoff
  simp only [failuresByClass, rows.countP_eq]

/-- All the messages are as many if those of the others are. -/
theorem SameOwn.count_eq_iff (same : SameOwn projectId messages messages') (p : Message → Bool) :
    messages.count p = messages'.count p ↔ SameCount projectId messages messages' p := by
  have split (t : Table Message.id) : t.count p =
      (t.rows.filter fun m => p m && m.projectId = projectId).length +
        t.count fun m => m.projectId ≠ projectId && p m := by
    simp only [Table.count]
    rw [List.countP_eq_countP_filter_add t.rows p fun m => decide (m.projectId = projectId),
      List.countP_filter, List.countP_filter, ← List.countP_eq_length_filter]
    congr 1
    refine congrArg (List.countP · t.rows) (funext fun m => ?_)
    by_cases own : m.projectId = projectId <;> simp [own]
  rw [split messages, split messages', (same.filter_perm p).length_eq]
  exact Nat.add_left_cancel_iff

/-- The age in the queue is that of some pending message, and no pending one is older. -/
theorem le_queueAge_iff {age : Int} : (∃ oldest, queueAge db now = some oldest ∧ age ≤ oldest) ↔
    ∃ m ∈ db.messages, m.status.Pending ∧ age ≤ m.age now := by
  unfold queueAge
  constructor
  · rintro ⟨_, oldest, le⟩
    obtain ⟨t, least, rfl⟩ := Option.map_eq_some_iff.mp oldest
    obtain ⟨m, mem, rfl⟩ := List.mem_map.mp (List.min?_mem least)
    obtain ⟨mem, pending⟩ := List.mem_filter.mp mem
    exact ⟨m, mem, of_decide_eq_true pending, le⟩
  · rintro ⟨m, mem, pending, le⟩
    have listed : m.createdAt ∈ (db.messages.rows.filter fun m => m.status.Pending).map
        Message.createdAt :=
      List.mem_map_of_mem (List.mem_filter.mpr ⟨mem, decide_eq_true pending⟩)
    obtain ⟨t, least⟩ := Option.isSome_iff_exists.mp (List.isSome_min?_of_mem listed)
    refine ⟨_, Option.map_eq_some_iff.mpr ⟨t, least, rfl⟩, le.trans ?_⟩
    have first : t ≤ m.createdAt := (List.min?_eq_some_iff.mp least).2 _ listed
    exact Binary64.roundSigned_mono 1 (by decide) (Int.sub_le_sub_left first now)

theorem eq_of_same_bounds {x y : Option Int}
    (same : ∀ age, (∃ k, x = some k ∧ age ≤ k) ↔ ∃ k, y = some k ∧ age ≤ k) : x = y := by
  cases x with
  | none =>
      cases y with
      | none => rfl
      | some k =>
          obtain ⟨_, absent, _⟩ := (same k).mpr ⟨k, rfl, Int.le_refl k⟩
          cases absent
  | some k =>
      obtain ⟨k', rfl, le⟩ := (same k).mp ⟨k, rfl, Int.le_refl k⟩
      obtain ⟨_, eq, le'⟩ := (same k').mpr ⟨k', rfl, Int.le_refl k'⟩
      obtain rfl := Option.some.inj eq
      rw [Int.le_antisymm le le']

theorem SameOwn.queueAge_eq_iff (same : SameOwn projectId messages messages') :
    queueAge (db.withMessages messages) now = queueAge (db.withMessages messages') now ↔
      ∀ age, (∀ m ∈ messages, m.projectId = projectId → m.status.Pending → m.age now < age) →
        (OlderElsewhere projectId messages now age ↔
          OlderElsewhere projectId messages' now age) := by
  have pending (t : Table Message.id) (age : Int) :
      (∃ oldest, queueAge (db.withMessages t) now = some oldest ∧ age ≤ oldest) ↔
        (∃ m ∈ t, m.projectId = projectId ∧ m.status.Pending ∧ age ≤ m.age now) ∨
          OlderElsewhere projectId t now age := by
    rw [le_queueAge_iff]
    constructor
    · rintro ⟨m, mem, pending, le⟩
      by_cases own : m.projectId = projectId
      · exact .inl ⟨m, mem, own, pending, le⟩
      · exact .inr ⟨m, mem, own, pending, le⟩
    · rintro (⟨m, mem, _, pending, le⟩ | ⟨m, mem, _, pending, le⟩)
      · exact ⟨m, mem, pending, le⟩
      · exact ⟨m, mem, pending, le⟩
  have own (age : Int) :
      (∃ m ∈ messages, m.projectId = projectId ∧ m.status.Pending ∧ age ≤ m.age now) ↔
        ∃ m ∈ messages', m.projectId = projectId ∧ m.status.Pending ∧ age ≤ m.age now :=
    ⟨fun ⟨m, mem, mine, rest⟩ => ⟨m, (same m mine).mp mem, mine, rest⟩,
      fun ⟨m, mem, mine, rest⟩ => ⟨m, (same m mine).mpr mem, mine, rest⟩⟩
  constructor
  · intro eq age younger
    have unmet : ¬ ∃ m ∈ messages, m.projectId = projectId ∧ m.status.Pending ∧ age ≤ m.age now :=
      fun ⟨m, mem, mine, waits, le⟩ => Int.not_le.mpr (younger m mem mine waits) le
    have bounds := pending messages age
    rw [eq, pending messages' age, ← own age, or_iff_right unmet, or_iff_right unmet] at bounds
    exact bounds.symm
  · intro elsewhere
    refine eq_of_same_bounds fun age => ?_
    rw [pending, pending, own]
    by_cases mine : ∃ m ∈ messages, m.projectId = projectId ∧ m.status.Pending ∧ age ≤ m.age now
    · simp only [(own age).mp mine, true_or]
    · refine or_congr_right (elsewhere age fun m mem own pending => ?_)
      exact Int.not_le.mp fun le => mine ⟨m, mem, own, pending, le⟩

theorem SameOwn.queueHealth_eq_iff (same : SameOwn projectId messages messages') :
    queueHealth (db.withMessages messages) now = queueHealth (db.withMessages messages') now ↔
      (SameCount projectId messages messages' (fun m => m.status.Pending) ∧
        SameCount projectId messages messages' (fun m => m.status = .sending) ∧
        SameCount projectId messages messages' Message.needsReview) ∧
      queueAge (db.withMessages messages) now = queueAge (db.withMessages messages') now := by
  rw [← same.count_eq_iff, ← same.count_eq_iff, ← same.count_eq_iff]
  constructor
  · intro eq
    exact ⟨⟨congrArg QueueHealth.pending eq, congrArg QueueHealth.sending eq,
      congrArg QueueHealth.needsReview eq⟩, congrArg QueueHealth.oldestPendingSeconds eq⟩
  · rintro ⟨⟨pending, sending, needsReview⟩, age⟩
    simp only [queueHealth, age, withMessages_messages, pending, sending, needsReview]

/-! The sender identities that are listed. -/

theorem mem_headroomRows {mailbox : Mailbox} {m : Option Message} :
    (mailbox, m) ∈ headroomRows (db.withMessages messages) cutoff (some projectId) ↔
      mailbox ∈ db.mailboxes ∧
        ((∃ m' ∈ messages, m'.counted mailbox.id cutoff = true ∧ m'.projectId = projectId ∧
          m = some m') ∨ (m = none ∧ ∀ m' ∈ messages, m'.counted mailbox.id cutoff = false)) := by
  rw [headroomRows, List.mem_filter, mem_leftJoin]
  constructor
  · rintro ⟨⟨mem, ⟨m', there, counted, rfl⟩ | ⟨rfl, idle⟩⟩, own⟩
    · exact ⟨mem, .inl ⟨m', there, counted, by simpa using own, rfl⟩⟩
    · exact ⟨mem, .inr ⟨rfl, idle⟩⟩
  · rintro ⟨mem, ⟨m', there, counted, own, rfl⟩ | ⟨rfl, idle⟩⟩
    · exact ⟨⟨mem, .inl ⟨m', there, counted, rfl⟩⟩, by simp [own]⟩
    · exact ⟨⟨mem, .inr ⟨rfl, idle⟩⟩, by simp⟩

/-- A sender identity is listed if the project has used it, or if nobody has used some
mailbox of it. -/
def Listed (projectId : Nat) (db : Database) (messages : Table Message.id) (cutoff : Time)
    (sender : String × Nat) : Prop :=
  UsesSender projectId db messages cutoff sender ∨ ∃ mailbox ∈ db.mailboxes,
    senderOf mailbox = sender ∧ ∀ m ∈ messages, m.counted mailbox.id cutoff = false

theorem mem_senders {sender : String × Nat} :
    sender ∈ (headroomRows (db.withMessages messages) cutoff (some projectId)).map
      (fun row => senderOf row.1) ↔ Listed projectId db messages cutoff sender := by
  rw [List.mem_map]
  constructor
  · rintro ⟨⟨mailbox, m⟩, row, rfl⟩
    rcases mem_headroomRows.mp row with ⟨mem, ⟨m', there, counted, own, rfl⟩ | ⟨rfl, idle⟩⟩
    · exact .inl ⟨mailbox, mem, rfl, m', there, own, counted⟩
    · exact .inr ⟨mailbox, mem, rfl, idle⟩
  · rintro (⟨mailbox, mem, rfl, m, there, own, counted⟩ | ⟨mailbox, mem, rfl, idle⟩)
    · exact ⟨(mailbox, some m), mem_headroomRows.mpr ⟨mem, .inl ⟨m, there, counted, own, rfl⟩⟩, rfl⟩
    · exact ⟨(mailbox, none), mem_headroomRows.mpr ⟨mem, .inr ⟨rfl, idle⟩⟩, rfl⟩

theorem listed_of_unused {sender : String × Nat}
    (unused : ¬ UsesSender projectId db messages cutoff sender) :
    Listed projectId db messages cutoff sender ↔
      IdleElsewhere projectId db messages cutoff sender := by
  rw [Listed, or_iff_right unused]
  constructor
  · rintro ⟨mailbox, mem, named, idle⟩
    exact ⟨mailbox, mem, named, fun m there _ => idle m there⟩
  · rintro ⟨mailbox, mem, named, idle⟩
    refine ⟨mailbox, mem, named, fun m there => ?_⟩
    by_cases own : m.projectId = projectId
    · exact Bool.eq_false_iff.mpr fun counted =>
        unused ⟨mailbox, mem, named, m, there, own, counted⟩
    · exact idle m there own

theorem SameOwn.usesSender_iff (same : SameOwn projectId messages messages')
    (sender : String × Nat) : UsesSender projectId db messages cutoff sender ↔
      UsesSender projectId db messages' cutoff sender :=
  ⟨fun ⟨mailbox, mem, named, m, there, own, counted⟩ =>
      ⟨mailbox, mem, named, m, (same m own).mp there, own, counted⟩,
    fun ⟨mailbox, mem, named, m, there, own, counted⟩ =>
      ⟨mailbox, mem, named, m, (same m own).mpr there, own, counted⟩⟩

theorem SameOwn.listed_iff (same : SameOwn projectId messages messages') :
    (∀ sender, Listed projectId db messages cutoff sender ↔
        Listed projectId db messages' cutoff sender) ↔
      ∀ mailbox ∈ db.mailboxes, ¬ UsesSender projectId db messages cutoff (senderOf mailbox) →
        (IdleElsewhere projectId db messages cutoff (senderOf mailbox) ↔
          IdleElsewhere projectId db messages' cutoff (senderOf mailbox)) := by
  constructor
  · intro listed mailbox _ unused
    rw [← listed_of_unused unused, listed, listed_of_unused (mt (same.usesSender_iff _).mpr unused)]
  · intro idle sender
    by_cases used : UsesSender projectId db messages cutoff sender
    · exact iff_of_true (.inl used) (.inl ((same.usesSender_iff sender).mp used))
    · have unused := mt (same.usesSender_iff sender).mpr used
      rw [listed_of_unused used, listed_of_unused unused]
      constructor
      · rintro ⟨mailbox, mem, rfl, rest⟩
        exact (idle mailbox mem used).mp ⟨mailbox, mem, rfl, rest⟩
      · rintro ⟨mailbox, mem, rfl, rest⟩
        exact (idle mailbox mem used).mpr ⟨mailbox, mem, rfl, rest⟩

/-- The attempts of the project with a sender identity. -/
def ownUse (projectId : Nat) (db : Database) (messages : Table Message.id) (cutoff : Time)
    (sender : String × Nat) : Nat :=
  (db.mailboxes.rows.map fun mailbox => if senderOf mailbox = sender then
    messages.rows.countP fun m => m.counted mailbox.id cutoff && m.projectId = projectId else 0).sum

theorem rateHeadroom_eq (margin : SafetyMargin) :
    rateHeadroom (db.withMessages messages) margin now (some projectId) =
      ((headroomRows (db.withMessages messages) (now - window) (some projectId)).map
        (fun row => senderOf row.1)).dedup.map fun sender =>
          headroomOf margin sender (ownUse projectId db messages (now - window) sender) := by
  refine List.map_congr_left fun sender _ => congrArg (headroomOf margin sender) ?_
  rw [List.countP_filter, headroomRows, List.countP_filter, countP_leftJoin (by simp), ownUse]
  refine congrArg List.sum (List.map_congr_left fun mailbox _ => ?_)
  by_cases named : senderOf mailbox = sender <;> simp [named]

theorem SameOwn.ownUse_eq (same : SameOwn projectId messages messages') (sender : String × Nat) :
    ownUse projectId db messages cutoff sender = ownUse projectId db messages' cutoff sender := by
  refine congrArg List.sum (List.map_congr_left fun mailbox _ => ?_)
  rw [List.countP_eq_length_filter, List.countP_eq_length_filter,
    (same.filter_perm fun m => m.counted mailbox.id cutoff).length_eq]

theorem headroomOf_injective (margin : SafetyMargin) (used : String × Nat → Nat) :
    Function.Injective fun sender => headroomOf margin sender (used sender) := by
  intro sender sender' same
  exact Prod.ext (congrArg Headroom.sender same) (congrArg Headroom.providerCeiling same)

theorem SameOwn.rateHeadroom_perm_iff (same : SameOwn projectId messages messages')
    (margin : SafetyMargin) :
    (rateHeadroom (db.withMessages messages) margin now (some projectId)).Perm
        (rateHeadroom (db.withMessages messages') margin now (some projectId)) ↔
      ∀ sender, Listed projectId db messages (now - window) sender ↔
        Listed projectId db messages' (now - window) sender := by
  have use : ownUse projectId db messages' (now - window) =
      ownUse projectId db messages (now - window) :=
        funext fun sender => (same.ownUse_eq sender).symm
  rw [rateHeadroom_eq, rateHeadroom_eq, use, List.map_perm_map_iff (headroomOf_injective margin _),
    List.perm_ext_iff_of_nodup (List.nodup_dedup _) (List.nodup_dedup _)]
  simp only [List.mem_dedup, mem_senders]

end TwoStores

section Response
variable {db : Database} {messages messages' : Table Message.id} {margin : SafetyMargin}
  {clock : Readings} {principal : Principal} {span : Int}

theorem SameOwn.buildOverview_iff {projectId : Nat} (same : SameOwn projectId messages messages')
    (queue : queueHealth (db.withMessages messages) clock.queue =
      queueHealth (db.withMessages messages') clock.queue)
    (headroom :
      (rateHeadroom (db.withMessages messages) margin clock.headroom (some projectId)).Perm
      (rateHeadroom (db.withMessages messages') margin clock.headroom (some projectId)))
    (o : Overview) :
    BuildOverview (db.withMessages messages) margin clock span (some projectId) o ↔
      BuildOverview (db.withMessages messages') margin clock span (some projectId) o := by
  have totals := Volume.of_perm (same.recent_perm db (clock.overview - hours span))
  have latency := same.providerLatency_eq db (clock.overview - hours span)
  have failures := same.failuresByClass_eq db (clock.overview - hours span)
  have slices (label : Message → Option String) (answer : List VolumeSlice) :=
    descending_congr (fun s => s.requested) answer
      (same.volumeBy_perm db label (clock.overview - hours span))
  have senders := descending_congr Headroom.usedThisHour o.rateHeadroom headroom
  constructor
  · intro h
    exact ⟨h.windowHours, h.totals.trans totals, h.queue.trans queue, h.latency.trans latency,
      (slices _ _).mp h.byProject, (slices _ _).mp h.byDomain, h.failuresByClass.trans failures,
      senders.mp h.rateHeadroom⟩
  · intro h
    exact ⟨h.windowHours, h.totals.trans totals.symm, h.queue.trans queue.symm,
      h.latency.trans latency.symm, (slices _ _).mpr h.byProject, (slices _ _).mpr h.byDomain,
      h.failuresByClass.trans failures.symm, senders.mpr h.rateHeadroom⟩

/-- Every request is answered. -/
theorem exists_getMetrics (db : Database) (margin : SafetyMargin) (clock : Readings)
    (principal : Principal) (windowHours : Int) :
    ∃ response, GetMetrics db margin clock principal windowHours response := by
  obtain ⟨byProject, projects⟩ := exists_descending (fun s => s.requested)
    (volumeBy (projectName db) db
      (clock.overview - hours (max 1 (min windowHours 720))) (some principal.projectId))
  obtain ⟨byDomain, domains⟩ := exists_descending (fun s => s.requested)
    (volumeBy (domainName db) db
      (clock.overview - hours (max 1 (min windowHours 720))) (some principal.projectId))
  obtain ⟨headroom, senders⟩ := exists_descending Headroom.usedThisHour
    (rateHeadroom db margin clock.headroom (some principal.projectId))
  exact ⟨_, ⟨⟨_, _, _, _, byDomain, _, headroom⟩, byProject⟩,
    ⟨rfl, rfl, rfl, rfl, projects, domains, rfl, senders⟩, rfl⟩

/-- Two stores that differ only in the messages of other projects give the same responses
exactly if those messages look the same from this project. -/
theorem metrics_same_iff (same : SameOwn principal.projectId messages messages')
    (windowHours : Int) :
    (∀ response, GetMetrics (db.withMessages messages) margin clock principal windowHours response ↔
        GetMetrics (db.withMessages messages') margin clock principal windowHours response) ↔
      LooksSame principal.projectId db messages messages' clock := by
  have parts : LooksSame principal.projectId db messages messages' clock ↔
      queueHealth (db.withMessages messages) clock.queue =
          queueHealth (db.withMessages messages') clock.queue ∧
        (rateHeadroom (db.withMessages messages) margin clock.headroom
            (some principal.projectId)).Perm
          (rateHeadroom (db.withMessages messages') margin clock.headroom
            (some principal.projectId)) := by
    rw [same.queueHealth_eq_iff, same.queueAge_eq_iff, same.rateHeadroom_perm_iff, same.listed_iff]
    exact ⟨fun h => ⟨⟨⟨h.pending, h.sending, h.needsReview⟩, h.oldest⟩, h.senders⟩,
      fun ⟨⟨⟨pending, sending, needsReview⟩, oldest⟩, senders⟩ =>
        ⟨pending, sending, needsReview, oldest, senders⟩⟩
  rw [parts]
  constructor
  · intro answers
    obtain ⟨response, o, built, shown⟩ :=
      exists_getMetrics (db.withMessages messages) margin clock principal windowHours
    obtain ⟨o', built', shown'⟩ := (answers response).mp ⟨o, built, shown⟩
    have told : o.toMetrics = o'.toMetrics := shown.symm.trans shown'
    refine ⟨?_, ?_⟩
    · rw [← built.queue, ← built'.queue, told]
    · have listed := built'.rateHeadroom.perm
      rw [← told] at listed
      exact built.rateHeadroom.perm.symm.trans listed
  · rintro ⟨queue, headroom⟩ response
    exact exists_congr fun o => and_congr_left' (same.buildOverview_iff queue headroom o)

end Response

namespace Sample

def blog : Project := { id := 2, name := "blog", description := none, active := true }

/-- Two projects share the sender identity. -/
def shared : Database :=
  { store mailbox with projects := (store mailbox).projects.insert blog rfl }

/-- A letter of the other project. -/
def blogLetter : Message :=
  newMessage { principal mailbox with projectId := 2, projectName := "blog" }
    (letter "bea@example.net" []) ⟨mailbox, domain⟩ none ["bea@example.net"] [] [] ⟨1, "B"⟩ 0

def blogLetters (m : Message) : Table Message.id := Table.empty.insert m rfl

def twoHoursLater : Readings := ⟨hours 2, hours 2, hours 2⟩

def nineTenths : SafetyMargin :=
  { Binary64.nineTenths with leavesHeadroom := nineTenths_leavesHeadroom }

/-- It has been taken by the provider. -/
def sentLetter : Message :=
  { blogLetter with status := .acceptedByProvider, lastAttemptAt := some 0, completedAt := some 0 }

theorem same_own (m : Message) (other : m.projectId = 2) :
    SameOwn (principal mailbox).projectId Table.empty (blogLetters m) := by
  intro m' own
  refine iff_of_false (Table.not_mem_empty m') fun mem => ?_
  obtain rfl : m' = m := (Table.mem_insert.mp mem).resolve_left (Table.not_mem_empty m')
  rw [other] at own
  exact absurd own (by decide)

end Sample

open Sample

/-- A letter that waits in the queue of another project is counted in the queue block. -/
theorem other_queue_is_disclosed :
    SameOwn (principal mailbox).projectId Table.empty (blogLetters blogLetter) ∧
    ∃ response, GetMetrics (shared.withMessages Table.empty) nineTenths twoHoursLater
        (principal mailbox) 24 response ∧
      ¬ GetMetrics (shared.withMessages (blogLetters blogLetter)) nineTenths twoHoursLater
        (principal mailbox) 24 response := by
  obtain ⟨response, o, built, shown⟩ :=
    exists_getMetrics (shared.withMessages Table.empty) nineTenths
    twoHoursLater (principal mailbox) 24
  refine ⟨same_own _ rfl, response, ⟨o, built, shown⟩, ?_⟩
  rintro ⟨o', built', shown'⟩
  have queues : queueHealth (shared.withMessages Table.empty) twoHoursLater.queue =
      queueHealth (shared.withMessages (blogLetters blogLetter)) twoHoursLater.queue := by
    rw [← built.queue, ← built'.queue, shown.symm.trans shown']
  exact absurd (congrArg QueueHealth.pending queues) (by decide)

theorem sentLetter_looksSame : LooksSame (principal mailbox).projectId shared Table.empty
    (blogLetters sentLetter) twoHoursLater := by
  have only {m : Message} (mem : m ∈ blogLetters sentLetter) : m = sentLetter :=
    (Table.mem_insert.mp mem).resolve_left (Table.not_mem_empty m)
  refine ⟨by decide, by decide, by decide, fun age _ => iff_of_false ?_ ?_, fun mailbox mem _ =>
    iff_of_true ⟨mailbox, mem, rfl, ?_⟩ ⟨mailbox, mem, rfl, ?_⟩⟩
  · rintro ⟨m, mem, _⟩
    exact Table.not_mem_empty m mem
  · rintro ⟨m, mem, _, pending, _⟩
    rw [only mem] at pending
    exact absurd pending (by decide)
  · exact fun m mem => absurd mem (Table.not_mem_empty m)
  · intro m mem _
    rw [only mem, Bool.eq_false_iff]
    intro counted
    obtain ⟨_, t, attempted, recent⟩ := Message.counted_iff.mp counted
    cases attempted
    exact absurd recent (by decide)

/-- A letter that has left the queue is not. -/
theorem other_sent_letter_is_not_disclosed :
    SameOwn (principal mailbox).projectId Table.empty (blogLetters sentLetter) ∧
    ∀ response, GetMetrics (shared.withMessages Table.empty) nineTenths twoHoursLater
        (principal mailbox) 24 response ↔
      GetMetrics (shared.withMessages (blogLetters sentLetter)) nineTenths twoHoursLater
        (principal mailbox) 24 response :=
  ⟨same_own _ rfl, (metrics_same_iff (same_own _ rfl) 24).mpr sentLetter_looksSame⟩

end Emaild
