import Emaild.Fleet.Standing

/-!
A request that is repeated under its key. The lookup of the key is the fourth step
of a request; before it the sender is authorised and the suppression list asked
again, on what the first delivery and the operators have made of them since.
-/
namespace Emaild
open Relational Transition Fleet

/-! Who holds a key. -/

/-- The token is an active key of an active project, and the address is that of the
given mailbox among its sender identities. -/
structure Holder (rt : Runtime) (token : String) (projectId : Nat) (address : String)
    (mailboxId : Nat) (db : Database) : Prop where
  project : ∃ project, db.projects.find? projectId = some project ∧ project.active = true
  key : ∃ key, (db.apiKeys.rows.find? fun k => k.keyHash = rt.sha256 token) = some key ∧
    key.revokedAt.isSome = false ∧ key.active = true ∧ key.projectId = projectId ∧
    ∃ identity, (scopedMailboxes db key).get? address = some identity ∧
      identity.mailbox.id = mailboxId

section Scopes
variable {db : Database} {key : ApiKey} {address : String} {identity : SenderIdentity}

/-- An identity in scope is a mailbox of the store with its domain. -/
theorem scopedMailboxes_current (h : (scopedMailboxes db key).get? address = some identity) :
    db.mailboxes.find? identity.mailbox.id = some identity.mailbox ∧
      db.domains.find? identity.mailbox.domainId = some identity.domain := by
  obtain ⟨p, found, rfl⟩ := Option.map_eq_some_iff.mp h
  obtain ⟨m, listed, entry⟩ := List.mem_filterMap.mp (Dict.mem_of_find?_ofList found)
  obtain ⟨d, domain, rfl⟩ := Option.map_eq_some_iff.mp entry
  exact ⟨Table.find?_of_mem (List.mem_filter.mp listed).1, domain⟩

theorem get?_ofList_map {l l' : List (String × SenderIdentity)}
    {f : SenderIdentity → SenderIdentity} (h : l' = l.map fun p => (p.1, f p.2)) :
    (Dict.ofList l').get? address = ((Dict.ofList l).get? address).map f := by
  rw [h, Dict.get?, Dict.find?_ofList_map l (fun p => (p.1, f p.2)) (fun _ => rfl), Dict.get?,
    Option.map_map, Option.map_map]
  rfl

theorem scopedMailboxes_setMailboxActive (mailboxId : Nat) (active : Bool) :
    (scopedMailboxes (db.setMailboxActive mailboxId active) key).get? address =
      ((scopedMailboxes db key).get? address).map fun i =>
        { i with mailbox :=
          if i.mailbox.id = mailboxId then { i.mailbox with active := active }
            else i.mailbox } := by
  refine get?_ofList_map ?_
  simp only [Database.setMailboxActive, Table.modify, Table.update, List.filter_map,
    List.filterMap_map, List.map_filterMap]
  -- the ids that the scopes name are not written
  have scope : ∀ p : Nat → Bool, ((fun m : Mailbox => p m.id) ∘ fun m =>
      if decide (m.id = mailboxId) = true then { m with active := active } else m) =
      fun m => p m.id := by
    intro p
    funext m
    dsimp only [Function.comp]
    split <;> rfl
  rw [scope fun id => decide (id ∈ _)]
  congr 1
  funext m
  by_cases here : m.id = mailboxId
  · simp only [Function.comp, here, decide_true, if_true]
    cases db.domains.find? m.domainId with
    | none => rfl
    | some d => simp [here]
  · simp only [Function.comp, here, decide_false, Bool.false_eq_true, if_false]
    cases db.domains.find? m.domainId with
    | none => rfl
    | some d => simp [here]

theorem scopedMailboxes_changeDomain (domainId : Nat) (status : DomainStatus)
    (smtpHost : Option String) :
    (scopedMailboxes (db.changeDomain domainId status smtpHost) key).get? address =
      ((scopedMailboxes db key).get? address).map fun i =>
        { i with domain :=
          if i.domain.id = domainId then { i.domain with status := status, smtpHost := smtpHost }
          else i.domain } := by
  refine get?_ofList_map ?_
  simp only [List.map_filterMap, find?_changeDomain]
  congr 1
  funext m
  cases found : db.domains.find? m.domainId with
  | none => simp
  | some d =>
      have own : d.id = m.domainId := Table.key_of_find? found
      by_cases here : m.domainId = domainId
      · simp [here, own]
      · simp [here, own]

end Scopes

section Holder
variable {rt : Runtime} {token address : String} {projectId mailboxId : Nat} {now : Time}
  {db db' : Database} {principal : Principal}

/-- Whoever is let in holds the key for each of its identities. -/
theorem holder_of_resolvePrincipal {identity : SenderIdentity}
    (h : resolvePrincipal rt now db token = .ok (principal, db'))
    (known : principal.mailboxes.get? address = some identity) :
    Holder rt token principal.projectId address identity.mailbox.id db := by
  unfold resolvePrincipal at h
  split at h
  · cases h
  rename_i key found
  split at h
  · cases h
  rename_i standing
  split at h
  · cases h
  rename_i project owner
  split at h
  · cases h
  rename_i active
  cases h
  have own : project.id = key.projectId := Table.key_of_find? owner
  simp only [not_or, Bool.not_eq_true, Bool.not_eq_false] at standing active
  exact ⟨⟨project, own ▸ owner, active⟩, key, found, standing.1, standing.2, own.symm, identity,
    known, rfl⟩

/-- The holder of a key is let in, and finds the identity as the store has it. -/
theorem Holder.resolves (h : Holder rt token projectId address mailboxId db) (now : Time) :
    ∃ principal key, resolvePrincipal rt now db token = .ok (principal, touchLastUsed now db key) ∧
      principal.projectId = projectId ∧
      ∃ identity, principal.mailboxes.get? address = some identity ∧
        identity.mailbox.id = mailboxId ∧
        (identity.mailbox.active = true ∧ identity.domain.status = .ready ↔
          db.Sendable mailboxId) := by
  obtain ⟨⟨project, owner, active⟩, key, found, live, inUse, rfl, identity, known, rfl⟩ := h
  obtain ⟨mailbox, domain⟩ := scopedMailboxes_current known
  have own : project.id = key.projectId := Table.key_of_find? owner
  refine ⟨⟨key.id, key.name, project.id, project.name, scopedMailboxes db key⟩, key, ?_, own,
    identity, known, rfl, ?_⟩
  · simp [resolvePrincipal, found, live, inUse, owner, active]
  · constructor
    · rintro ⟨on, ready⟩
      exact ⟨_, _, mailbox, on, domain, ready⟩
    · rintro ⟨mailbox', domain', found', on, domain'', ready⟩
      obtain rfl := Option.some.inj (mailbox.symm.trans found')
      obtain rfl := Option.some.inj (domain.symm.trans domain'')
      exact ⟨on, ready⟩

/-- Of the tables that a holder is known by, nothing is written. -/
theorem Holder.of_tables (h : Holder rt token projectId address mailboxId db)
    (projects : db'.projects = db.projects) (keys : db'.apiKeys = db.apiKeys)
    (scopes : db'.apiKeyScopes = db.apiKeyScopes) (mailboxes : db'.mailboxes = db.mailboxes)
    (domains : db'.domains = db.domains) : Holder rt token projectId address mailboxId db' := by
  obtain ⟨project, key, found, live, inUse, own, identity, known⟩ := h
  refine ⟨projects ▸ project, key, keys ▸ found, live, inUse, own, identity, ?_⟩
  rw [scopedMailboxes, scopes, mailboxes, domains]
  exact known

variable (now) in
theorem find?_touchLastUsed (used key : ApiKey) (digest : String)
    (h : (db.apiKeys.rows.find? fun k => k.keyHash = digest) = some key) :
    ∃ lastUse, ((touchLastUsed now db used).apiKeys.rows.find? fun k => k.keyHash = digest) =
      some { key with lastUsedAt := lastUse } := by
  unfold touchLastUsed
  split
  · have hashes : ((fun k : ApiKey => decide (k.keyHash = digest)) ∘ fun k =>
        if decide (k.id = used.id) = true then { k with lastUsedAt := some now } else k) =
        fun k => decide (k.keyHash = digest) := by
      funext k
      dsimp only [Function.comp]
      split <;> rfl
    simp only [Table.modify, Table.update, List.find?_map, hashes, h, Option.map_some]
    split
    · exact ⟨_, rfl⟩
    · exact ⟨key.lastUsedAt, rfl⟩
  · exact ⟨key.lastUsedAt, h⟩

/-- A use of any key leaves the holder its rights. -/
theorem Holder.touched (h : Holder rt token projectId address mailboxId db) (used : ApiKey) :
    Holder rt token projectId address mailboxId (touchLastUsed now db used) := by
  obtain ⟨project, key, found, live, inUse, own, identity, known⟩ := h
  obtain ⟨lastUse, found⟩ := find?_touchLastUsed now used key _ found
  have others : (touchLastUsed now db used).projects = db.projects ∧
      ∀ lastUse, scopedMailboxes (touchLastUsed now db used) { key with lastUsedAt := lastUse } =
        scopedMailboxes db key := by
    unfold touchLastUsed
    split <;> exact ⟨rfl, fun _ => rfl⟩
  exact ⟨others.1 ▸ project, _, found, live, inUse, own, identity, others.2 lastUse ▸ known⟩

end Holder

/-! What goes on between two requests. -/

/-- A step of the fleet, a key that somebody presents, or nothing. -/
inductive Visit
  | fleet (l : Label)
  | authenticate (token : String)
  | idle (wait : Nat)

namespace Fleet

/-- `require_principal`, in a transaction of its own. -/
def authenticate (D : Deployment) (s : Fleet) (token : String) :
    Except Raised (Principal × Fleet) :=
  (resolvePrincipal D.rt s.clock s.db token).map fun (principal, db) =>
    (principal, { s with db := db })

def visit (D : Deployment) (s : Fleet) : Visit → Option Fleet
  | .fleet l => step D s l
  | .authenticate token =>
      match s.authenticate D token with
      | .ok (_, t) => some t
      | .error _ => some s
  | .idle wait => some { s with clock := s.clock + wait }

end Fleet

/-- What a step does to the rows that a repeated request is judged by. -/
inductive Passes (before : Database) : Database → Prop
  | quiet {after : Database} (standing : SameStanding before after)
      (mailboxes : after.mailboxes = before.mailboxes) (domains : after.domains = before.domains) :
      Passes before after
  | mailbox {mailboxId : Nat} {active : Bool} :
    Passes before (before.setMailboxActive mailboxId active)
  | domain {domainId : Nat} {status : DomainStatus} {smtpHost : Option String} :
      Passes before (before.changeDomain domainId status smtpHost)
  | grown {m : Message} {opening : List Event} {keys : List IdempotencyKey} {after : Database}
      (grows : Grows m opening keys before after) : Passes before after
  | used (now : Time) (key : ApiKey) : Passes before (touchLastUsed now before key)

theorem Passes.refl (db : Database) : Passes db db := .quiet (.refl db) rfl rfl

section Passes
variable {D : Deployment} {s t : Fleet}

/-- A key that is presented has its last use noted. -/
theorem authenticate_ok {token : String} {principal : Principal}
    (h : s.authenticate D token = .ok (principal, t)) :
    resolvePrincipal D.rt s.clock s.db token = .ok (principal, t.db) ∧
      ∃ key, t.db = touchLastUsed s.clock s.db key := by
  unfold Fleet.authenticate at h
  cases resolved : resolvePrincipal D.rt s.clock s.db token with
  | error e =>
      rw [resolved] at h
      cases h
  | ok r =>
      rw [resolved] at h
      cases h
      obtain ⟨key, _, _, _, _, _, touched⟩ := resolvePrincipal_ok resolved
      exact ⟨rfl, key, touched⟩

theorem passes_of_authenticate {token : String} {principal : Principal}
    (h : s.authenticate D token = .ok (principal, t)) : Passes s.db t.db := by
  obtain ⟨_, key, touched⟩ := authenticate_ok h
  exact touched ▸ .used _ key

theorem passes_of_ingest (principal : Principal) (request : SendEmailRequest)
    (key : Option String) (draw : IngestDraw) (now : Time) (db : Database) :
    Passes db (sessionScope (ingestMessage D.rt D.hash D.idempotencyTtlHours principal request key
      draw now) db).2 := by
  have ends := ingestMessage_ends D.rt D.hash D.idempotencyTtlHours principal request key draw now
    db
  dsimp only at ends
  generalize sessionScope (ingestMessage D.rt D.hash D.idempotencyTtlHours principal request key
    draw now) db = run at *
  obtain ⟨result, after⟩ := run
  cases ends with
  | refused | replayed => exact .refl _
  | stored _ _ grows => exact .grown grows

theorem passes_of_visit {l : Visit} (h : s.visit D l = some t) : Passes s.db t.db := by
  cases l with
  | idle wait =>
      cases h
      exact .refl _
  | authenticate token =>
      dsimp only [Fleet.visit] at h
      split at h
      · rename_i accepted
        cases h
        exact passes_of_authenticate accepted
      · cases h
        exact .refl _
  | fleet l =>
      obtain ⟨u, taken, rfl⟩ := Option.map_eq_some_iff.mp h
      by_cases asks : ∃ principal request key draw, l.action = .ingest principal request key draw
      · obtain ⟨principal, request, key, draw, action⟩ := asks
        rw [action] at taken
        obtain rfl := Option.some.inj taken
        dsimp only
        exact passes_of_ingest (D := D) principal request key draw (s.clock + l.wait) s.db
      · have standing := standing_of_advance taken fun principal request key draw action =>
          asks ⟨principal, request, key, draw, action⟩
        have identities := (effect_of_advance D taken).identities
        generalize l.action = action at identities
        cases identities with
        | same mailboxes domains => exact .quiet standing mailboxes domains
        | mailbox eq => exact eq ▸ .mailbox
        | domain eq => exact eq ▸ .domain

theorem Holder.passes {rt : Runtime} {token address : String} {projectId mailboxId : Nat}
    {before after : Database} (h : Holder rt token projectId address mailboxId before)
    (passes : Passes before after) : Holder rt token projectId address mailboxId after := by
  cases passes with
  | quiet standing mailboxes domains =>
      exact h.of_tables standing.projects standing.apiKeys standing.apiKeyScopes mailboxes domains
  | grown grows =>
      exact h.of_tables grows.projects grows.apiKeys grows.apiKeyScopes
        grows.mailboxes grows.domains
  | used now key => exact h.touched key
  | mailbox =>
      obtain ⟨project, key, found, live, inUse, own, identity, known, same⟩ := h
      refine ⟨project, key, found, live, inUse, own, _,
        (scopedMailboxes_setMailboxActive ..).trans (congrArg _ known), ?_⟩
      dsimp only
      split <;> exact same
  | domain =>
      obtain ⟨project, key, found, live, inUse, own, identity, known, same⟩ := h
      exact ⟨project, key, found, live, inUse, own, _,
        (scopedMailboxes_changeDomain ..).trans (congrArg _ known), same⟩

/-- The key is on record with a digest and an answer. -/
def Database.Remembers (db : Database) (scope : Nat × String) (digest : String)
    (answer : String × String) : Prop :=
  ∃ row, db.idempotencyKeys.find? scope = some row ∧ row.requestHash = digest ∧
    row.responseBody = some answer

theorem Database.Remembers.passes {before after : Database} {scope : Nat × String}
    {digest : String} {answer : String × String} (h : before.Remembers scope digest answer)
    (passes : Passes before after) : after.Remembers scope digest answer := by
  obtain ⟨row, found, same, answered⟩ := h
  cases passes with
  | quiet standing => exact ⟨row, standing.idempotencyKeys ▸ found, same, answered⟩
  | grown grows =>
      exact ⟨row, Table.find?_of_append grows.idempotencyKeys found, same, answered⟩
  | mailbox | domain => exact ⟨row, found, same, answered⟩
  | used now key =>
      unfold touchLastUsed
      split <;> exact ⟨row, found, same, answered⟩

/-- Nothing but the checks of steps 1 to 3 stands between a request on record and its
answer. -/
theorem replayIfSeen_remembered (rt : Runtime) {db : Database} {projectId : Nat}
    {key digest id status : String} (h : db.Remembers (projectId, key) digest (id, status)) :
    replayIfSeen rt db projectId key digest = .ok (some ⟨id, status, true⟩) := by
  obtain ⟨row, found, same, answered⟩ := h
  simp [replayIfSeen, found, same, answered]

/-! The checks of a repeated request. -/

section Repeated
variable {rt : Runtime} {before after : Database} {principal principal' : Principal}
  {request : SendEmailRequest} {displayName : Option String} {identity identity' : SenderIdentity}
  {toList ccList bccList : List String}

theorem authorizeSender_eq {address : String}
    (parsed : parseFromAddress rt request.from = .ok (displayName, address))
    (known : principal.mailboxes.get? address = some identity)
    (r : Option String × SenderIdentity) :
    authorizeSender rt principal request.from = .ok r ↔
      (identity.mailbox.active = true ∧ identity.domain.status = .ready) ∧
        r = (displayName, identity) := by
  unfold authorizeSender
  rw [parsed]
  dsimp only
  rw [known]
  dsimp only
  split
  · rename_i off
    simp [off]
  · rename_i on
    split
    · rename_i ready
      simp [ready, on, eq_comm]
    · rename_i unready
      simp [unready]

theorem parsed_of_authorizeSender
    (h : authorizeSender rt principal request.from = .ok (displayName, identity)) :
    ∃ address, parseFromAddress rt request.from = .ok (displayName, address) ∧
      principal.mailboxes.get? address = some identity := by
  unfold authorizeSender at h
  split at h
  · cases h
  · rename_i name address parsed
    split at h
    · cases h
    · rename_i known
      split at h
      · cases h
      · split at h <;> cases h
        exact ⟨address, parsed, known⟩

/-- A request that has passed once passes again if its sender may send and no normal form of
its recipients is suppressed, and only then. -/
theorem Vetted.again_iff {address : String}
    (v : Vetted rt before principal request displayName identity toList ccList bccList)
    (parsed : parseFromAddress rt request.from = .ok (displayName, address))
    (known : principal'.mailboxes.get? address = some identity') :
    (∃ parts, checkRequest rt after principal' request = .ok parts) ↔
      (identity'.mailbox.active = true ∧ identity'.domain.status = .ready) ∧
        ∀ a ∈ toList ++ ccList ++ bccList, ∀ n, normaliseAddress rt a = .ok n →
          ¬ after.suppressed n := by
  have sender := authorizeSender_eq parsed known
  constructor
  · rintro ⟨⟨displayName', identity'', toList', ccList', bccList'⟩, passes⟩
    obtain ⟨authorized, toNormal, ccNormal, bccNormal, _, unsuppressed⟩ :=
      checkRequest_eq_ok.mp passes
    obtain rfl := Except.ok.inj (v.toNormal.symm.trans toNormal)
    obtain rfl := Except.ok.inj (v.ccNormal.symm.trans ccNormal)
    obtain rfl := Except.ok.inj (v.bccNormal.symm.trans bccNormal)
    exact ⟨((sender _).mp authorized).1, fun a mem =>
      (checkSuppressions_ok.mp unsuppressed a mem).2⟩
  · rintro ⟨sends, free⟩
    exact ⟨_, checkRequest_eq_ok.mpr {
      authorized := (sender _).mpr ⟨sends, rfl⟩
      toNormal := v.toNormal, ccNormal := v.ccNormal, bccNormal := v.bccNormal
      limits := v.limits
      unsuppressed := checkSuppressions_ok.mpr fun a mem =>
        ⟨(v.checked.unreported a mem).1, free a mem⟩ }⟩

end Repeated

namespace Fleet

/-- The request is answered with the identifier and the store is left as it is. -/
def Replays (D : Deployment) (s : Fleet) (principal : Principal) (request : SendEmailRequest)
    (key : String) (draw : IngestDraw) (publicId : String) : Prop :=
  ∃ result, s.serve D principal request (some key) draw = (.ok result, s) ∧
    result.publicId = publicId

theorem replays_iff {principal : Principal} {request : SendEmailRequest} {key id status : String}
    (keyed : key ≠ "") (draw : IngestDraw)
    (known : s.db.Remembers (principal.projectId, key) (D.hash (canonicalPayload request))
      (id, status)) :
    s.Replays D principal request key draw id ↔
      ∃ parts, checkRequest D.rt s.db principal request = .ok parts := by
  have carried : (some key).filter (· ≠ "") = some key := by simp [keyed]
  have replay := replayIfSeen_remembered D.rt known
  unfold Replays serve
  rw [ingestMessage_eq, carried]
  cases checkRequest D.rt s.db principal request with
  | error e => simp
  | ok parts =>
      dsimp only [Option.elim]
      rw [replay]
      simp

/-- What every step keeps is kept by a run. -/
theorem kept_of_passes {P : Database → Prop}
    (keeps : ∀ before after, P before → Passes before after → P after)
    (run : Reaches (visit D) Any s t) (start : P s.db) : P t.db :=
  run.invariant (I := fun s => P s.db) start fun _ _ _ _ taken kept =>
    keeps _ _ kept (passes_of_visit taken)

/-- Whatever happens between and after, the holder of the key that carried a request is
let in again, and the repeated request is answered with the first identifier and
creates nothing exactly if the sender identity may send when the key is resolved and
no normal form of a recipient is suppressed when the request is served. -/
theorem repeated_request_replays_iff {s₀ s₁ s₂ s₃ s₄ : Fleet} {token key : String}
    {principal : Principal} {request : SendEmailRequest} {draw : IngestDraw}
    {result : IngestResult} {m : Message}
    (holder : s₀.authenticate D token = .ok (principal, s₁))
    (meanwhile : Reaches (visit D) Any s₁ s₂) (keyed : key ≠ "")
    (accepted : s₂.serve D principal request (some key) draw = (.ok result, s₃))
    (first : result.replayed = false)
    (mem : m ∈ s₃.db.messages) (named : m.publicId = result.publicId)
    (later : Reaches (visit D) Any s₃ s₄) :
    ∃ principal' s₅, s₄.authenticate D token = .ok (principal', s₅) ∧
      ∀ s₆, Reaches (visit D) Any s₅ s₆ → ∀ draw',
        (s₆.Replays D principal' request key draw' result.publicId ↔
          s₄.db.Sendable m.mailboxId ∧ ∀ a ∈ m.envelopeRecipients, ∀ n,
            normaliseAddress D.rt a = .ok n → ¬ s₆.db.suppressed n) := by
  have carried : (some key).filter (· ≠ "") = some key := by simp [keyed]
  have ends := ingestMessage_ends D.rt D.hash D.idempotencyTtlHours principal request (some key)
    draw s₂.clock s₂.db
  dsimp only at ends
  unfold serve at accepted
  generalize sessionScope (ingestMessage D.rt D.hash D.idempotencyTtlHours principal request
    (some key) draw s₂.clock) s₂.db = run at *
  obtain ⟨r, after⟩ := run
  obtain ⟨rfl, rfl⟩ := Prod.mk.inj accepted
  cases ends with
  | replayed => cases first
  | @stored displayName identity toList ccList bccList domainName m' _ vetted row grows =>
  obtain rfl : m = m' := by
    rw [Table.mem_def, grows.inserted] at mem
    rcases List.mem_append.mp mem with old | new
    · have others := List.all_eq_true.mp (Bool.and_eq_true_iff.mp grows.admitted).2 m old
      exact absurd named (of_decide_eq_true others)
    · exact List.mem_singleton.mp new
  obtain ⟨address, parsed, known⟩ := parsed_of_authorizeSender vetted.authorized
  -- the holder and the key's row, up to the resolution for the repeated request
  have holds : Holder D.rt token principal.projectId address identity.mailbox.id s₄.db := by
    have started := (holder_of_resolvePrincipal (authenticate_ok holder).1 known).passes
      (passes_of_authenticate holder)
    have before := kept_of_passes (fun _ _ h => h.passes) meanwhile started
    exact kept_of_passes (fun _ _ h => h.passes) later (before.passes (.grown grows))
  have written : after.Remembers (principal.projectId, key) (D.hash (canonicalPayload request))
      (m.publicId, MessageStatus.queued.value) := by
    refine ⟨keyRow D.hash D.idempotencyTtlHours principal request s₂.clock m key, ?_, rfl, rfl⟩
    refine Table.find?_appended grows.idempotencyKeys (List.mem_map_of_mem ?_)
    rw [carried]
    exact List.mem_singleton_self key
  have remembered := kept_of_passes (fun _ _ => Database.Remembers.passes) later written
  obtain ⟨principal', used, resolves, own, identity', known', same, sends⟩ :=
    holds.resolves s₄.clock
  have letIn : s₄.authenticate D token =
      .ok (principal', { s₄ with db := touchLastUsed s₄.clock s₄.db used }) := by
    unfold authenticate
    rw [resolves]
    rfl
  refine ⟨principal', _, letIn, fun s₆ last draw' => ?_⟩
  have still := kept_of_passes (fun _ _ => Database.Remembers.passes) last
    (remembered.passes (passes_of_authenticate letIn))
  rw [replays_iff keyed draw' (own ▸ still), vetted.again_iff parsed known', sends]
  subst row
  rw [newMessage_recipients]
  rfl

end Fleet
end Passes

/-! A letter that is accepted under a key, answered by the provider, and asked for
again. -/
namespace Sample

/-- The key has been presented, and its last use noted. -/
def presented : Fleet :=
  { fleet mailbox with db := touchLastUsed 0 (store mailbox) apiKey }

def welcome (s : Fleet) (ulid : String) : Except Raised IngestResult × Fleet :=
  s.serve deployment (principal mailbox) (letter "ann@example.net" []) (some "welcome-1") ⟨1, ulid⟩

def welcomed : Fleet := (welcome presented "A").2

def welcomeLetter : Message :=
  newMessage (principal mailbox) (letter "ann@example.net" []) ⟨mailbox, domain⟩ none
    ["ann@example.net"] [] [] ⟨1, "A"⟩ 0

/-- The letter goes out, and the provider's answer is recorded. -/
def delivery (result : DeliveryResult) : List Visit :=
  [now (.start "A"), claimBy "A" [1], now (.deliver "A" false), now (.send "A"),
    recordBy "A" result].map .fleet

/-- How the request ends when its key is presented again. -/
def again (s : Fleet) : Option (Except Raised IngestResult) :=
  (s.authenticate deployment "em_live_1").toOption.map fun (holder, t) =>
    (t.serve deployment holder (letter "ann@example.net" []) (some "welcome-1") ⟨2, "B"⟩).1

theorem presented_holder : (fleet mailbox).authenticate deployment "em_live_1" =
    .ok (principal mailbox, presented) := rfl

theorem welcomed_first : welcome presented "A" = (.ok ⟨"email_A", "queued", false⟩, welcomed) := by
  have first : (welcome presented "A").1 = .ok ⟨"email_A", "queued", false⟩ := by decide +kernel
  rw [← first, welcomed]

theorem again_eq_some {s : Fleet} {result : Except Raised IngestResult}
    (h : again s = some result) :
    ∃ holder t, s.authenticate deployment "em_live_1" = .ok (holder, t) ∧
      (t.serve deployment holder (letter "ann@example.net" []) (some "welcome-1") ⟨2, "B"⟩).1 =
        result := by
  unfold again at h
  cases presents : s.authenticate deployment "em_live_1" with
  | error e =>
      rw [presents] at h
      cases h
  | ok r =>
      rw [presents] at h
      exact ⟨r.1, r.2, rfl, Option.some.inj h⟩

end Sample

open Sample

/-- The provider rejects the only recipient, who is suppressed for it; the repeated
request is refused. -/
theorem bounced_request_is_not_replayed :
    (fleet mailbox).authenticate deployment "em_live_1" = .ok (principal mailbox, presented) ∧
    welcome presented "A" = (.ok ⟨"email_A", "queued", false⟩, welcomed) ∧
    ∃ s₄ s₅ holder, Reaches (Fleet.visit deployment) Any welcomed s₄ ∧
      s₄.authenticate deployment "em_live_1" = .ok (holder, s₅) ∧
      ¬ s₅.Replays deployment holder (letter "ann@example.net" []) "welcome-1" ⟨2, "B"⟩
        "email_A" := by
  have run : (execute (Fleet.visit deployment) welcomed (delivery bounce.result)).map
      (fun s => (again s).map fun r => r.toOption) = some (some none) := by decide +kernel
  obtain ⟨reached, seen⟩ : Reaches (Fleet.visit deployment) Any welcomed _ ∧ _ :=
    reaches_final _ run fun _ _ _ => trivial
  obtain ⟨result, asked, failed⟩ := Option.map_eq_some_iff.mp seen
  obtain ⟨holder, s₅, letIn, ends⟩ := again_eq_some asked
  refine ⟨presented_holder, welcomed_first, _, s₅, holder, reached, letIn, ?_⟩
  rintro ⟨answer, served, _⟩
  rw [served] at ends
  rw [← ends] at failed
  cases failed

/-- The provider takes the letter; the repeated request is answered with its identifier. -/
theorem delivered_request_is_replayed : ∃ s₄ s₅ holder,
    Reaches (Fleet.visit deployment) Any welcomed s₄ ∧
    s₄.authenticate deployment "em_live_1" = .ok (holder, s₅) ∧
    s₅.Replays deployment holder (letter "ann@example.net" []) "welcome-1" ⟨2, "B"⟩ "email_A" := by
  have run : (execute (Fleet.visit deployment) welcomed
      (delivery (accepted ["ann@example.net"]))).map (fun s => (s.db.mailboxes.find? 1,
        s.db.domains.find? 1, s.db.suppressions.rows)) =
      some (some mailbox, some domain, []) := by decide +kernel
  obtain ⟨reached, seen⟩ : Reaches (Fleet.visit deployment) Any welcomed _ ∧ _ :=
    reaches_final _ run fun _ _ _ => trivial
  obtain ⟨sender, ready, unlisted⟩ : _ ∧ _ ∧ _ := by simpa only [Prod.mk.injEq] using seen
  have found : welcomed.db.messages.find? 1 = some welcomeLetter := by decide +kernel
  obtain ⟨holder, s₅, letIn, answers⟩ := Fleet.repeated_request_replays_iff presented_holder .refl
    (by decide) welcomed_first rfl (Table.mem_of_find? found) rfl reached
  refine ⟨_, s₅, holder, reached, letIn, (answers s₅ .refl ⟨2, "B"⟩).mpr
    ⟨⟨mailbox, domain, sender, rfl, ready, rfl⟩, fun a _ n _ listed => listed ?_⟩⟩
  obtain ⟨_, key, touched⟩ := authenticate_ok letIn
  have same : s₅.db.suppressions.rows = [] := by
    rw [touched, ← unlisted]
    unfold touchLastUsed
    split <;> rfl
  rw [Table.find?, same]
  rfl

end Emaild
