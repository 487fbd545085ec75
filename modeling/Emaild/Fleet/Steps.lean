import Emaild.Fleet

/-!
What a step can do. `Acts` says which actions are possible and what each of them leaves
behind. Every invariant of the fleet is proved from the cases of `Effect`, and every law
about single rows from `RowChange`.
-/
namespace Emaild.Fleet
open Relational

section Process
variable (s : Fleet) (w : String) (p : Process) (phase : Phase)

@[simp] theorem moveTo_db : (s.moveTo w phase).db = s.db := rfl
@[simp] theorem moveTo_wire : (s.moveTo w phase).wire = s.wire := rfl

@[simp] theorem setProcess_workers_self : (s.setProcess w p).workers w = p :=
  Function.update_self ..

theorem setProcess_workers_ne {w' : String} (h : w' ≠ w) :
    (s.setProcess w p).workers w' = s.workers w' :=
  Function.update_of_ne h ..

@[simp] theorem moveTo_phase_self : ((s.moveTo w phase).workers w).phase = phase := by
  simp [moveTo]

theorem moveTo_phase_ne {w' : String} (h : w' ≠ w) :
    (s.moveTo w phase).workers w' = s.workers w' :=
  s.setProcess_workers_ne w _ h

end Process

variable (D : Deployment)

/-- What the actions leave behind, and at which point of a process each is possible. -/
inductive Acts (s : Fleet) (now later : Time) : Action → Fleet → Prop
  | ingest {principal : Principal} {request : SendEmailRequest} {key : Option String}
      {draw : IngestDraw} :
      Acts s now later (.ingest principal request key draw)
        { s with db := (sessionScope (ingestMessage D.rt D.hash D.idempotencyTtlHours principal
          request key draw now) s.db).2 }
  | start {w : String} (down : (s.workers w).phase = .down) :
      Acts s now later (.start w) (s.setProcess w ⟨.serving [], false⟩)
  | kill {w : String} : Acts s now later (.kill w) (s.moveTo w .down)
  | requestShutdown {w : String} : Acts s now later (.requestShutdown w)
      (s.setProcess w { s.workers w with shutdown := true })
  | stop {w : String} (idle : s.workers w = ⟨.serving [], true⟩) :
      Acts s now later (.stop w) (s.moveTo w .down)
  | raised {w : String} (alive : (s.workers w).phase ≠ .down) :
      Acts s now later (.raised w) (s.moveTo w (.serving []))
  | claim {w : String} {locked : Nat → Bool} {order : List Nat}
      (idle : (s.workers w).phase = .serving [])
      (perm : order.Perm (claimMessages s.db locked w batchSize now).1) :
      Acts s now later (.claim w locked order)
        ({ s with db := (claimMessages s.db locked w batchSize now).2 }.moveTo w (.serving order))
  | release {w : String} {id : Nat} {rest : List Nat}
      (turn : s.workers w = ⟨.serving (id :: rest), true⟩) :
      Acts s now later (.release w)
        ({ s with db := releaseClaim s.db id }.moveTo w (.serving rest))
  | deliver {w : String} {fails : Bool} {id : Nat} {rest : List Nat}
      (turn : s.workers w = ⟨.serving (id :: rest), false⟩) :
      Acts s now later (.deliver w fails) (s.deliver D w id rest fails now later)
  | send {w : String} {a : Attempt} {store : Database} {rest : List Nat}
      (turn : (s.workers w).phase = .stamped a store rest) :
      Acts s now later (.send w)
        ({ s with wire := s.wire ++ [Call.mk a store now] }.moveTo w (.awaiting a rest))
  | record {w : String} {result : DeliveryResult} {latencyMs : Nat} {jitter : Jitter}
      {race : Race} {a : Attempt} {rest : List Nat}
      (turn : (s.workers w).phase = .awaiting a rest) :
      Acts s now later (.record w result latencyMs jitter race)
        (s.record D w a rest race ⟨result, a.number, latencyMs, jitter, now, later⟩)
  | reap {w : String} (idle : (s.workers w).phase = .serving []) :
      Acts s now later (.reap w)
        { s with db := reapStaleClaims s.db staleClaimAfter now later }
  | purge {w : String} (idle : (s.workers w).phase = .serving []) :
      Acts s now later (.purge w)
        { s with db := purgeExpiredBodies s.db D.bodyRetentionHours now }
  | suppress {address : String} {source : SuppressionSource} {reason : Option String}
      {projectId : Option Nat} :
      Acts s now later (.suppress address source reason projectId)
        { s with db := (sessionScope (addSuppression D.rt noRace now address source reason
          projectId) s.db).2 }
  | unsuppress {address : String} {there : Bool} {db : Database}
      (removed : removeSuppression D.rt s.db address = .ok (there, db)) :
      Acts s now later (.unsuppress address) { s with db := db }
  | invalid {address : String} {e : Raised}
      (refused : removeSuppression D.rt s.db address = .error e) :
      Acts s now later (.unsuppress address) s
  | changeDomain {domainId : Nat} {status : DomainStatus} {smtpHost : Option String} :
      Acts s now later (.changeDomain domainId status smtpHost)
        { s with db := s.db.changeDomain domainId status smtpHost }
  | setMailboxActive {mailboxId : Nat} {active : Bool} :
      Acts s now later (.setMailboxActive mailboxId active)
        { s with db := s.db.setMailboxActive mailboxId active }

theorem acts_of_advance {s t : Fleet} {now later : Time} {act : Action}
    (h : advance D s now later act = some t) : Acts D s now later act t := by
  cases act with
  | ingest =>
      cases h
      exact .ingest
  | kill =>
      cases h
      exact .kill
  | requestShutdown =>
      cases h
      exact .requestShutdown
  | suppress =>
      cases h
      exact .suppress
  | changeDomain =>
      cases h
      exact .changeDomain
  | setMailboxActive =>
      cases h
      exact .setMailboxActive
  | start | send | record | reap | purge | release | deliver | stop =>
      dsimp only [advance] at h
      split at h
      · rename_i turn
        cases h
        constructor
        exact turn
      · cases h
  | raised =>
      dsimp only [advance] at h
      split at h
      · cases h
      · rename_i alive
        cases h
        exact .raised alive
  | claim =>
      dsimp only [advance] at h
      split at h
      · rename_i idle
        split at h
        · rename_i perm
          cases h
          exact .claim idle perm
        · cases h
      · cases h
  | unsuppress =>
      dsimp only [advance] at h
      split at h
      · rename_i removed
        cases h
        exact .unsuppress removed
      · rename_i refused
        cases h
        exact .invalid refused

/-- The cases of a step. A process that does nothing to the store keeps its phase,
dies, or is back in the main loop; `start` alone brings one to life. -/
inductive Effect (s : Fleet) (now later : Time) : Action → Fleet → Prop
  | aside {act : Action} {db : Database} (same : Bystander s.db db)
      (silent : act.answer? = none := by rfl) :
      Effect s now later act { s with db := db }
  | accepted {principal : Principal} {request : SendEmailRequest} {key : Option String}
      {draw : IngestDraw} {db : Database} {m : Message}
      (stored : Accepted D.rt principal request draw now s.db db m) :
      Effect s now later (.ingest principal request key draw) { s with db := db }
  | process {act : Action} {w : String} {p : Process}
      (quiet : p.phase = (s.workers w).phase ∨ p.phase = .down ∨ p.phase = .serving [])
      (woken : (s.workers w).phase = .down → p.phase ≠ .down → act = .start w)
      (silent : act.answer? = none := by rfl) :
      Effect s now later act (s.setProcess w p)
  | claimed {w : String} {locked : Nat → Bool} {order : List Nat}
      (idle : (s.workers w).phase = .serving [])
      (perm : order.Perm (dueMessages s.db locked batchSize now)) :
      Effect s now later (.claim w locked order)
        ({ s with db := (claimMessages s.db locked w batchSize now).2 }.moveTo w (.serving order))
  | released {w : String} {id : Nat} {rest : List Nat}
      (turn : (s.workers w).phase = .serving (id :: rest)) :
      Effect s now later (.release w)
        ({ s with db := releaseClaim s.db id }.moveTo w (.serving rest))
  | opened {w : String} {fails : Bool} {id : Nat} {rest : List Nat} {opening : Opening}
      {db : Database} (turn : (s.workers w).phase = .serving (id :: rest))
      (opens : Opens D.margin s.db id now later opening db) :
      Effect s now later (.deliver w fails) ({ s with db := db }.moveTo w (next s.db rest opening))
  | sent {w : String} {a : Attempt} {store : Database} {rest : List Nat}
      (turn : (s.workers w).phase = .stamped a store rest) :
      Effect s now later (.send w)
        ({ s with wire := s.wire ++ [Call.mk a store now] }.moveTo w (.awaiting a rest))
  | recorded {w : String} {result : DeliveryResult} {latencyMs : Nat} {jitter : Jitter}
      {race : Race} {a : Attempt} {rest ids : List Nat} {db : Database}
      (turn : (s.workers w).phase = .awaiting a rest) (fewer : ids.Sublist rest)
      (kept : (∃ m, s.db.messages.find? a.messageId = some m ∧
        Rewrites a.messageId
          (Recording.mk result a.number latencyMs jitter now later).row s.db db) ∨
        Bystander s.db db) :
      Effect s now later (.record w result latencyMs jitter race)
        ({ s with db := db, answers := s.answers ++ [Answer.mk a.messageId result] }.moveTo w
          (.serving ids))
  | reaped {w : String} (idle : (s.workers w).phase = .serving []) :
      Effect s now later (.reap w)
        { s with db := reapStaleClaims s.db staleClaimAfter now later }
  | purged {w : String} (idle : (s.workers w).phase = .serving []) :
      Effect s now later (.purge w)
        { s with db := purgeExpiredBodies s.db D.bodyRetentionHours now }
  | domainChanged {domainId : Nat} {status : DomainStatus} {smtpHost : Option String} :
      Effect s now later (.changeDomain domainId status smtpHost)
        { s with db := s.db.changeDomain domainId status smtpHost }
  | mailboxChanged {mailboxId : Nat} {active : Bool} :
      Effect s now later (.setMailboxActive mailboxId active)
        { s with db := s.db.setMailboxActive mailboxId active }

theorem effect_of_advance {s t : Fleet} {now later : Time} {act : Action}
    (h : advance D s now later act = some t) : Effect D s now later act t := by
  cases acts_of_advance D h with
  | @ingest principal request key draw =>
      rcases ingestMessage_cases D.rt D.hash D.idempotencyTtlHours principal request key draw now
        s.db with same | ⟨m, stored⟩
      · refine .aside ?_
        rw [same]
        exact .refl _
      · exact .accepted stored
  | start => exact .process (.inr (.inr rfl)) fun _ _ => rfl
  | kill => exact .process (.inr (.inl rfl)) fun _ alive => absurd rfl alive
  | requestShutdown => exact .process (.inl rfl) fun down alive => absurd down alive
  | stop => exact .process (.inr (.inl rfl)) fun _ alive => absurd rfl alive
  | raised alive => exact .process (.inr (.inr rfl)) fun down _ => absurd down alive
  | claim idle perm => exact .claimed idle perm
  | release turn => exact .released (congrArg Process.phase turn)
  | @deliver w fails id rest turn =>
      have phase : (s.workers w).phase = .serving (id :: rest) := congrArg Process.phase turn
      unfold Fleet.deliver
      cases run : openDelivery D.margin fails s.db id now later with
      | error e =>
          refine .process (.inr (.inr rfl)) fun down _ => ?_
          rw [phase] at down
          cases down
      | ok opened => exact .opened phase (opens_of_openDelivery run)
  | send turn => exact .sent turn
  | @record w result latencyMs jitter race a rest turn =>
      unfold Fleet.record
      refine .recorded turn ?_ (recordOutcome_cases D.rt race
        ⟨result, a.number, latencyMs, jitter, now, later⟩ a.messageId)
      split
      · exact List.Sublist.refl _
      · exact List.nil_sublist _
  | reap idle => exact .reaped idle
  | purge idle => exact .purged idle
  | suppress => exact .aside (addSuppression_aside ..)
  | unsuppress removed => exact .aside (removeSuppression_bystander removed)
  | invalid => exact .aside (.refl _)
  | changeDomain => exact .domainChanged
  | setMailboxActive => exact .mailboxChanged

/-- A step is one of the cases, and moves the clock on. -/
theorem effect_of_step {s t : Fleet} {l : Label} (h : step D s l = some t) :
    ∃ u, Effect D s (s.clock + l.wait) (s.clock + l.wait + l.lapse) l.action u ∧
      t = { u with clock := s.clock + l.wait + l.lapse } := by
  obtain ⟨u, hu, rfl⟩ := Option.map_eq_some_iff.mp h
  exact ⟨u, effect_of_advance D hu, rfl⟩

/-! Single rows. -/

/-- What a step may write to a row that is there, and when. -/
inductive RowChange (s : Fleet) (now later : Time) : Action → Message → Message → Prop
  | claimed {w : String} {locked : Nat → Bool} {order : List Nat} {m : Message}
      (idle : (s.workers w).phase = .serving []) (taken : m.id ∈ order)
      (due : m.due now = true) : RowChange s now later (.claim w locked order) m (m.claim w now)
  | released {w : String} {rest : List Nat} {m : Message}
      (turn : (s.workers w).phase = .serving (m.id :: rest)) (sending : m.status = .sending) :
      RowChange s now later (.release w) m m.release
  | held {w : String} {fails : Bool} {rest : List Nat} {m : Message} {opening : Time}
      (turn : (s.workers w).phase = .serving (m.id :: rest)) :
      RowChange s now later (.deliver w fails) m (m.hold opening)
  | undeliverable {w : String} {fails : Bool} {rest : List Nat} {m : Message}
      {mailbox : Mailbox} {domain : Domain}
      (turn : (s.workers w).phase = .serving (m.id :: rest))
      (found : deliveryRow s.db m.id = some (m, mailbox, domain))
      (room : (currentBudget s.db mailbox D.margin now).exhausted = false)
      (noHost : domain.smtpHost = none) :
      RowChange s now later (.deliver w fails) m (m.failPermanently now none noSmtpHost true)
  | stamped {w : String} {fails : Bool} {rest : List Nat} {m : Message}
      (turn : (s.workers w).phase = .serving (m.id :: rest)) :
      RowChange s now later (.deliver w fails) m (m.stamp later)
  | recorded {w : String} {result : DeliveryResult} {latencyMs : Nat} {jitter : Jitter}
      {race : Race} {a : Attempt} {rest : List Nat} {m : Message}
      (turn : (s.workers w).phase = .awaiting a rest) (mine : m.id = a.messageId) :
      RowChange s now later (.record w result latencyMs jitter race) m
        ((Recording.mk result a.number latencyMs jitter now later).row m)
  | reaped {w : String} {m : Message} (idle : (s.workers w).phase = .serving [])
      (stale : m.stale (now - staleClaimAfter) = true) :
      RowChange s now later (.reap w) m (m.reap later)
  | purged {w : String} {m : Message} (idle : (s.workers w).phase = .serving [])
      (expired : m.expired (now - hours D.bodyRetentionHours) = true) :
      RowChange s now later (.purge w) m (m.purge now)

/-- A row after a step: as it was, changed by one of the writers, or new. -/
inductive RowAt (s t : Fleet) (now later : Time) (act : Action) (id : Nat) : Prop
  | same (eq : t.db.messages.find? id = s.db.messages.find? id)
  | changed {m m' : Message} (before : s.db.messages.find? id = some m)
      (after : t.db.messages.find? id = some m') (change : RowChange D s now later act m m')
  | new {principal : Principal} {request : SendEmailRequest} {key : Option String}
      {draw : IngestDraw} {m : Message} (ingest : act = .ingest principal request key draw)
      (before : s.db.messages.find? id = none) (after : t.db.messages.find? id = some m)
      (stored : Accepted D.rt principal request draw now s.db t.db m)

variable {D} {s t : Fleet} {now later : Time} {act : Action}

/-- An update of the rows that satisfy a test. -/
theorem rowAt_update {p : Message → Prop} [DecidablePred p] {f : Message → Message} {id : Nat}
    (after : t.db.messages.find? id =
      (s.db.messages.find? id).map fun m => if p m then f m else m)
    (change : ∀ m, s.db.messages.find? id = some m → p m →
      RowChange D s now later act m (f m)) : RowAt D s t now later act id := by
  cases found : s.db.messages.find? id with
  | none => exact .same (by rw [after, found]; rfl)
  | some m =>
      rw [found, Option.map_some] at after
      by_cases hp : p m
      · rw [if_pos hp] at after
        exact .changed found after (change m found hp)
      · rw [if_neg hp] at after
        exact .same (after.trans found.symm)

/-- The rewrite of one row. -/
theorem rowAt_rewrites {id' : Nat} {f : Message → Message} (rewrites : Rewrites id' f s.db t.db)
    (id : Nat) (change : ∀ m, s.db.messages.find? id' = some m →
      RowChange D s now later act m (f m)) : RowAt D s t now later act id := by
  by_cases eq : id = id'
  · subst eq
    cases found : s.db.messages.find? id with
    | none =>
        refine .same ?_
        rw [rewrites.messages, if_pos rfl, found]
        rfl
    | some m => exact .changed found (rewrites.self found) (change m found)
  · exact .same (rewrites.other eq)

theorem Effect.row (e : Effect D s now later act t) (id : Nat) : RowAt D s t now later act id := by
  cases e with
  | aside same => exact .same (by rw [same.messages])
  | process => exact .same rfl
  | sent => exact .same rfl
  | domainChanged => exact .same rfl
  | mailboxChanged => exact .same rfl
  | @accepted principal request key draw db m stored =>
      have after := stored.stored.messages id
      by_cases eq : id = m.id
      · rw [if_pos eq] at after
        exact .new rfl (eq ▸ stored.stored.fresh) after stored
      · rw [if_neg eq] at after
        exact .same after
  | claimed idle perm =>
      refine rowAt_update (find?_claimMessages ..) fun m found taken => ?_
      obtain ⟨m', mem, same, due⟩ := due_of_mem_dueMessages taken
      obtain rfl := Table.eq_of_key_eq mem (Table.mem_of_find? found) same
      exact .claimed idle (perm.mem_iff.mpr taken) due
  | released turn =>
      refine rowAt_update (find?_releaseClaim ..) fun m found mine => ?_
      obtain ⟨rfl, sending⟩ := mine
      exact .released turn sending
  | opened turn opens =>
      cases opens with
      | gone => exact .same rfl
      | held found rewrites =>
          refine rowAt_rewrites rewrites id fun m found => ?_
          obtain rfl := Table.key_of_find? found
          exact .held turn
      | undeliverable row room noHost rewrites =>
          refine rowAt_rewrites rewrites id fun m found => ?_
          obtain rfl := Table.key_of_find? found
          obtain rfl := Option.some.inj ((deliveryRow_eq_some.mp row).1.symm.trans found)
          exact .undeliverable turn row room noHost
      | stamped row _ _ rewrites =>
          refine rowAt_rewrites rewrites id fun m found => ?_
          obtain rfl := Table.key_of_find? found
          exact .stamped turn
  | recorded turn _ kept =>
      rcases kept with ⟨_, _, rewrites⟩ | same
      · exact rowAt_rewrites rewrites id fun m found => .recorded turn (Table.key_of_find? found)
      · exact .same (by rw [moveTo_db, same.messages])
  | reaped idle =>
      exact rowAt_update (find?_reapStaleClaims ..) fun m _ stale => .reaped idle stale
  | purged idle =>
      exact rowAt_update (find?_purgeExpiredBodies ..) fun m _ expired => .purged idle expired

/-- No writer touches what identifies and addresses a message. -/
theorem RowChange.letter {m m' : Message} (c : RowChange D s now later act m m') :
    SameLetter m m' := by
  cases c with
  | recorded => exact Recording.row_letter _ m
  | _ => exact ⟨rfl, rfl, rfl⟩

/-- The sender identities after a step: as they were, or one of them changed by an
operator or a sweep. -/
inductive IdentitiesAt (s t : Fleet) : Action → Prop
  | same {act : Action} (mailboxes : t.db.mailboxes = s.db.mailboxes)
      (domains : t.db.domains = s.db.domains) : IdentitiesAt s t act
  | mailbox {mailboxId : Nat} {active : Bool} (eq : t.db = s.db.setMailboxActive mailboxId active) :
      IdentitiesAt s t (.setMailboxActive mailboxId active)
  | domain {domainId : Nat} {status : DomainStatus} {smtpHost : Option String}
      (eq : t.db = s.db.changeDomain domainId status smtpHost) :
      IdentitiesAt s t (.changeDomain domainId status smtpHost)

theorem Effect.identities (e : Effect D s now later act t) : IdentitiesAt s t act := by
  cases e with
  | aside same => exact .same same.mailboxes same.domains
  | accepted stored => exact .same stored.stored.mailboxes stored.stored.domains
  | opened turn opens =>
      cases opens with
      | gone => exact .same rfl rfl
      | held _ rewrites => exact .same rewrites.mailboxes rewrites.domains
      | undeliverable _ _ _ rewrites => exact .same rewrites.mailboxes rewrites.domains
      | stamped _ _ _ rewrites => exact .same rewrites.mailboxes rewrites.domains
  | recorded turn fewer kept =>
      rcases kept with ⟨_, _, rewrites⟩ | same
      · exact .same rewrites.mailboxes rewrites.domains
      · exact .same same.mailboxes same.domains
  | mailboxChanged => exact .mailbox rfl
  | domainChanged => exact .domain rfl
  | _ => exact .same rfl rfl

/-- A mailbox after a step. -/
inductive MailboxAt (s t : Fleet) (act : Action) (id : Nat) : Prop
  | same (eq : t.db.mailboxes.find? id = s.db.mailboxes.find? id)
  | changed {active : Bool} (set : act = .setMailboxActive id active)
      (eq : t.db.mailboxes.find? id =
        (s.db.mailboxes.find? id).map fun m => { m with active := active })

theorem Effect.mailbox (e : Effect D s now later act t) (id : Nat) : MailboxAt s t act id := by
  cases e.identities with
  | same mailboxes => exact .same (by rw [mailboxes])
  | domain eq => exact .same (by rw [eq]; rfl)
  | @mailbox mailboxId active eq =>
      have after := find?_setMailboxActive s.db mailboxId active id
      rw [← eq] at after
      by_cases here : id = mailboxId
      · subst here
        rw [if_pos rfl] at after
        exact .changed rfl after
      · rw [if_neg here] at after
        exact .same after

/-- A domain after a step. -/
inductive DomainAt (s t : Fleet) (act : Action) (id : Nat) : Prop
  | same (eq : t.db.domains.find? id = s.db.domains.find? id)
  | changed {status : DomainStatus} {smtpHost : Option String}
      (set : act = .changeDomain id status smtpHost)
      (eq : t.db.domains.find? id =
        (s.db.domains.find? id).map fun d => { d with status := status, smtpHost := smtpHost })

theorem Effect.domain (e : Effect D s now later act t) (id : Nat) : DomainAt s t act id := by
  cases e.identities with
  | same _ domains => exact .same (by rw [domains])
  | mailbox eq => exact .same (by rw [eq]; rfl)
  | @domain domainId status smtpHost eq =>
      have after := find?_changeDomain s.db domainId status smtpHost id
      rw [← eq] at after
      by_cases here : id = domainId
      · subst here
        rw [if_pos rfl] at after
        exact .changed rfl after
      · rw [if_neg here] at after
        exact .same after

/-! The wire, the answers, and how attempts come about. -/

theorem Effect.answers_subset (e : Effect D s now later act t) : s.answers ⊆ t.answers := by
  cases e with
  | recorded => exact List.subset_append_left ..
  | _ => exact List.Subset.refl _

/-- A recording notes the answer to the attempt that its worker awaits. -/
theorem Effect.answered {w : String} {result : DeliveryResult} {latencyMs : Nat}
    {jitter : Jitter} {race : Race}
    (e : Effect D s now later (.record w result latencyMs jitter race) t) :
    ∃ a rest, (s.workers w).phase = .awaiting a rest ∧
      t.answers = s.answers ++ [⟨a.messageId, result⟩] := by
  cases e with
  | aside _ silent => cases silent
  | process _ _ silent => cases silent
  | recorded turn => exact ⟨_, _, turn, rfl⟩

/-- At most one call is made, by a worker that has stamped its attempt. -/
theorem Effect.wire (e : Effect D s now later act t) :
    t.wire = s.wire ∨ ∃ w a store rest, (s.workers w).phase = .stamped a store rest ∧
      (t.workers w).phase = .awaiting a rest ∧ t.wire = s.wire ++ [⟨a, store, now⟩] := by
  cases e with
  | sent turn => exact .inr ⟨_, _, _, _, turn, moveTo_phase_self .., rfl⟩
  | _ => exact .inl rfl

/-- A process that is moved to a phase of another kind is not in this one. -/
theorem phase_of_moveTo {u : Fleet} {w w' : String} {phase phase' : Phase}
    (same : u.workers = s.workers) (h : ((u.moveTo w phase).workers w').phase = phase')
    (ne : phase ≠ phase') : (s.workers w').phase = phase' := by
  by_cases eq : w' = w
  · subst eq
    rw [moveTo_phase_self] at h
    exact absurd h ne
  · rwa [moveTo_phase_ne _ _ _ eq, same] at h

/-- A stamped attempt was there before, or is the one that this step opens. -/
theorem Effect.stamped_of (e : Effect D s now later act t) {w : String} {a : Attempt}
    {store : Database} {rest : List Nat} (h : (t.workers w).phase = .stamped a store rest) :
    (s.workers w).phase = .stamped a store rest ∨ ∃ fails id, act = .deliver w fails ∧
      (s.workers w).phase = .serving (id :: rest) ∧ store = s.db ∧
      Opens D.margin s.db id now later (.stamped a) t.db := by
  cases e with
  | @process _ w' p quiet _ _ =>
      by_cases eq : w = w'
      · subst eq
        rw [setProcess_workers_self] at h
        rcases quiet with same | down | idle
        · exact .inl (same ▸ h)
        · simp [down] at h
        · simp [idle] at h
      · rw [setProcess_workers_ne _ _ _ eq] at h
        exact .inl h
  | @opened w' fails id rest' opening db turn opens =>
      by_cases eq : w = w'
      · subst eq
        rw [moveTo_phase_self] at h
        cases opening <;> cases h
        exact .inr ⟨fails, id, rfl, turn, rfl, opens⟩
      · rw [moveTo_phase_ne _ _ _ eq] at h
        exact .inl h
  | claimed | released | sent | recorded => exact .inl (phase_of_moveTo rfl h (by simp))
  | _ => exact .inl h

/-- A worker that awaits an answer did so before, or has just called. -/
theorem Effect.awaiting_of (e : Effect D s now later act t) {w : String} {a : Attempt}
    {rest : List Nat} (h : (t.workers w).phase = .awaiting a rest) :
    (s.workers w).phase = .awaiting a rest ∨
      ∃ store, (s.workers w).phase = .stamped a store rest := by
  cases e with
  | @process _ w' p quiet _ _ =>
      by_cases eq : w = w'
      · subst eq
        rw [setProcess_workers_self] at h
        rcases quiet with same | down | idle
        · exact .inl (same ▸ h)
        · simp [down] at h
        · simp [idle] at h
      · rw [setProcess_workers_ne _ _ _ eq] at h
        exact .inl h
  | @sent w' a' store rest' turn =>
      by_cases eq : w = w'
      · subst eq
        rw [moveTo_phase_self] at h
        cases h
        exact .inr ⟨store, turn⟩
      · rw [moveTo_phase_ne _ _ _ eq] at h
        exact .inl h
  | @opened w' fails id rest' opening db turn opens =>
      exact .inl (phase_of_moveTo rfl h (by cases opening <;> simp [next]))
  | claimed | released | recorded => exact .inl (phase_of_moveTo rfl h (by simp))
  | _ => exact .inl h

end Emaild.Fleet
