import Emaild.Fleet.Standing
import Emaild.Text.Delimited

/-!
Requests whose transactions overlap. In `Fleet` a request is one step; here its
statements are, as READ COMMITTED lets them interleave: the checks, the lookup of
the key, the flush of the message and its events, the flush of the key's row and
the commit. What is flushed is seen by nobody else, but a row of the same key has
to wait until the first one is committed or given up.
-/
namespace Emaild
open Relational Transition Fleet Text

/-- What steps 1 to 3 hand on. -/
abbrev Parts := Option String × SenderIdentity × List String × List String × List String

/-- How far a request has come. The last two have flushed the message. -/
inductive Progress
  | arrived
  | vetted (parts : Parts)
  | unseen (parts : Parts)
  | flushed (m : Message) (flushedAt : Time)
  | keyed (m : Message) (flushedAt : Time)

/-- A request with its open transaction. -/
structure Post where
  ticket : Nat
  principal : Principal
  request : SendEmailRequest
  key : Option String
  draw : IngestDraw
  progress : Progress

namespace Post

/-- `if idempotency_key:` -/
def idempotencyKey (p : Post) : Option String := p.key.filter (· ≠ "")

def scope? (p : Post) : Option (Nat × String) :=
  p.idempotencyKey.map fun k => (p.principal.projectId, k)

/-- The row of its key is flushed and not yet committed. -/
def holdsKey (p : Post) : Bool :=
  match p.progress with
  | .keyed _ _ => p.scope?.isSome
  | _ => false

def message (p : Post) (parts : Parts) (now : Time) : Message :=
  let (displayName, identity, toList, ccList, bccList) := parts
  newMessage p.principal p.request identity displayName toList ccList bccList p.draw now

/-- Step 4. -/
def replay (p : Post) (D : Deployment) (db : Database) : Except Raised (Option IngestResult) :=
  p.idempotencyKey.elim (.ok none) fun k =>
    replayIfSeen D.rt db p.principal.projectId k (D.hash (canonicalPayload p.request))

def writeKey (p : Post) (D : Deployment) (m : Message) (now : Time) : Tx Database Raised PUnit :=
  storeKey D.rt p.idempotencyKey
    (keyRow D.hash D.idempotencyTtlHours p.principal p.request now m)

/-- What its transaction has written, on the rows that are committed when it
commits. -/
def write (p : Post) (D : Deployment) (m : Message) (now : Time) : Tx Database Raised PUnit :=
  storeAll D.rt D.hash D.idempotencyTtlHours p.principal p.request p.key now m

end Post

/-- What a caller is told. -/
structure Response where
  post : Post
  result : Except Raised IngestResult

/-- A message that a request has committed. -/
structure Commit where
  post : Post
  message : Message

/-- The fleet with the requests that are being served, and what became of the
others. -/
structure Desk where
  fleet : Fleet
  posts : Table Post.ticket
  responses : List Response
  commits : List Commit

/-- The statements of a request. -/
inductive PostStep
  | check | lookup | flush | insertKey | commit
  /-- The connection or the process is lost; the database rolls back. -/
  | abort

inductive PostStatement
  /-- A step of the fleet that is no request. -/
  | whole (action : Action)
  | arrive (p : Post)
  | next (ticket : Nat) (statement : PostStep)

/-- A statement, and the microseconds that pass before each of its clock readings. -/
structure PostTurn where
  wait : Nat
  lapse : Nat
  statement : PostStatement

def Action.isIngest : Action → Bool
  | .ingest _ _ _ _ => true
  | _ => false

namespace Desk
variable (D : Deployment)

def proceed (s : Desk) (ticket : Nat) (progress : Progress) : Desk :=
  { s with posts := s.posts.modify ticket fun p => { p with progress := progress } }

def close (s : Desk) (ticket : Nat) : Desk :=
  { s with posts := s.posts.delete fun p => p.ticket = ticket }

def answer (s : Desk) (p : Post) (result : Except Raised IngestResult) : Desk :=
  { s.close p.ticket with responses := s.responses ++ [⟨p, result⟩] }

/-- Another open transaction has inserted the same key. -/
def keyTaken (s : Desk) (p : Post) : Bool :=
  s.posts.rows.any fun q => q.holdsKey && q.ticket ≠ p.ticket && q.scope? = p.scope?

/-- The commit, and only then the response. -/
def settle (s : Desk) (p : Post) (m : Message) (flushedAt : Time) : Desk :=
  match sessionScope (p.write D m flushedAt) s.fleet.db with
  | (.error e, _) => s.answer p (.error e)
  | (.ok _, db) =>
      { fleet := { s.fleet with db := db }
        posts := s.posts.delete fun q => q.ticket = p.ticket
        responses := s.responses ++ [⟨p, .ok ⟨m.publicId, MessageStatus.queued.value, false⟩⟩]
        commits := s.commits ++ [⟨p, m⟩] }

/-- The next statement of a request, if it is the one that is asked for. -/
def serve (s : Desk) (p : Post) (now : Time) : PostStep → Option Desk
  | .check =>
      match p.progress with
      | .arrived => some (match checkRequest D.rt s.fleet.db p.principal p.request with
          | .error e => s.answer p (.error e)
          | .ok parts => s.proceed p.ticket (.vetted parts))
      | _ => none
  | .lookup =>
      match p.progress with
      | .vetted parts => some (match p.replay D s.fleet.db with
          | .error e => s.answer p (.error e)
          | .ok (some r) => s.answer p (.ok r)
          | .ok none => s.proceed p.ticket (.unseen parts))
      | _ => none
  | .flush =>
      match p.progress with
      | .unseen parts =>
          let m := p.message parts now
          some (match storeMessage s.fleet.db p.principal m with
            | .error e => s.answer p (.error e)
            | .ok _ => s.proceed p.ticket (.flushed m now))
      | _ => none
  | .insertKey =>
      match p.progress with
      | .flushed m flushedAt =>
          -- a duplicate waits for the transaction that came first
          if s.keyTaken p then none
          else some (match (sessionScope (p.writeKey D m flushedAt) s.fleet.db).1 with
            | .error e => s.answer p (.error e)
            | .ok _ => s.proceed p.ticket (.keyed m flushedAt))
      | _ => none
  | .commit =>
      match p.progress with
      | .keyed m flushedAt => some (s.settle D p m flushedAt)
      | _ => none
  | .abort => some (s.close p.ticket)

def advance (s : Desk) (now later : Time) : PostStatement → Option Desk
  | .whole action =>
      if action.isIngest then none
      else (Fleet.advance D s.fleet now later action).map fun fleet => { s with fleet := fleet }
  | .arrive p =>
      match p.progress with
      | .arrived => (s.posts.insert? p).map fun posts => { s with posts := posts }
      | _ => none
  | .next ticket statement => (s.posts.find? ticket).bind fun p => s.serve D p now statement

def step (s : Desk) (l : PostTurn) : Option Desk :=
  let now := s.fleet.clock + l.wait
  let later := now + l.lapse
  (advance D s now later l.statement).map fun t =>
    { t with fleet := { t.fleet with clock := later } }

end Desk

/-! What the statements do. -/

section Writes
variable {D : Deployment} {p : Post} {m : Message} {now : Time} {db db' : Database} {u : PUnit}

/-- The row of the post's key, if it has one. -/
def Post.keyRows (p : Post) (D : Deployment) (m : Message) (now : Time) : List IdempotencyKey :=
  p.idempotencyKey.toList.map (keyRow D.hash D.idempotencyTtlHours p.principal p.request now m)

variable (D m now) in
theorem Post.mem_keyRows {k : String} (carries : p.idempotencyKey = some k) :
    keyRow D.hash D.idempotencyTtlHours p.principal p.request now m k ∈ p.keyRows D m now := by
  simp [Post.keyRows, carries]

theorem write_ok (h : sessionScope (p.write D m now) db = (.ok u, db')) :
    ∃ domainName, Grows m (openingEvents p.principal m domainName) (p.keyRows D m now) db db' :=
  storeAll_ok D.rt D.hash D.idempotencyTtlHours p.principal p.request p.key now db h

/-- A key is flushed only if no committed row has it. -/
theorem free_of_writeKey (h : (sessionScope (p.writeKey D m now) db).1 = .ok u)
    {scope : Nat × String} (carries : p.scope? = some scope) :
    db.idempotencyKeys.find? scope = none := by
  obtain ⟨k, carried, rfl⟩ := Option.map_eq_some_iff.mp carries
  unfold Post.writeKey at h
  rcases storeKey_exec D.rt p.idempotencyKey (keyRow D.hash D.idempotencyTtlHours p.principal
    p.request now m) (.begin db) with ⟨keys, rows, _⟩ | ⟨e, s', failed, _⟩
  · exact Table.free_of_append rows (Post.mem_keyRows D m now carried)
  · rw [sessionScope_error failed] at h
    cases h

theorem replay_some {r : IngestResult} (h : p.replay D db = .ok (some r)) :
    ∃ k row id status, p.idempotencyKey = some k ∧
      db.idempotencyKeys.find? (p.principal.projectId, k) = some row ∧
      row.requestHash = D.hash (canonicalPayload p.request) ∧
      row.responseBody = some (id, status) ∧ r = ⟨id, status, true⟩ := by
  unfold Post.replay at h
  cases carried : p.idempotencyKey with
  | none =>
      rw [carried] at h
      cases h
  | some k =>
      rw [carried] at h
      obtain ⟨row, id, status, found, same, answered, rfl⟩ := replayIfSeen_some D.rt db h
      exact ⟨k, row, id, status, rfl, found, same, answered, rfl⟩

end Writes

namespace Desk
variable (D : Deployment)

/-- The cases of a statement. -/
inductive Move (s : Desk) (now later : Time) : PostStatement → Desk → Prop
  | whole {act : Action} {fleet : Fleet} (standing : SameStanding s.fleet.db fleet.db)
      (effect : Effect D s.fleet now later act fleet) :
      Move s now later (.whole act) { s with fleet := fleet }
  | arrived {p : Post} (fresh : s.posts.find? p.ticket = none) (idle : p.holdsKey = false) :
      Move s now later (.arrive p) { s with posts := s.posts.insert p fresh }
  | proceeded {p : Post} {act : PostStep} {progress : Progress}
      (found : s.posts.find? p.ticket = some p)
      (idle : ({ p with progress := progress } : Post).holdsKey = false) :
      Move s now later (.next p.ticket act) (s.proceed p.ticket progress)
  | keyed {p : Post} {m : Message} {flushedAt : Time} (found : s.posts.find? p.ticket = some p)
      (first : s.keyTaken p = false)
      (free : ∀ scope, p.scope? = some scope → s.fleet.db.idempotencyKeys.find? scope = none) :
      Move s now later (.next p.ticket .insertKey) (s.proceed p.ticket (.keyed m flushedAt))
  | refused {p : Post} {act : PostStep} {e : Raised} (found : s.posts.find? p.ticket = some p) :
      Move s now later (.next p.ticket act) (s.answer p (.error e))
  | replayed {p : Post} {r : IngestResult} (found : s.posts.find? p.ticket = some p)
      (seen : p.replay D s.fleet.db = .ok (some r)) :
      Move s now later (.next p.ticket .lookup) (s.answer p (.ok r))
  | committed {p : Post} {m : Message} {flushedAt : Time} {domainName : String} {db : Database}
      (found : s.posts.find? p.ticket = some p) (ready : p.progress = .keyed m flushedAt)
      (grows : Grows m (openingEvents p.principal m domainName) (p.keyRows D m flushedAt)
        s.fleet.db db) :
      Move s now later (.next p.ticket .commit) {
        fleet := { s.fleet with db := db }
        posts := s.posts.delete fun q => q.ticket = p.ticket
        responses := s.responses ++ [⟨p, .ok ⟨m.publicId, MessageStatus.queued.value, false⟩⟩]
        commits := s.commits ++ [⟨p, m⟩] }
  | aborted {p : Post} (found : s.posts.find? p.ticket = some p) :
      Move s now later (.next p.ticket .abort) (s.close p.ticket)

variable {D} {s t : Desk} {now later : Time}

theorem move_of_serve {p : Post} {act : PostStep} (found : s.posts.find? p.ticket = some p)
    (h : s.serve D p now act = some t) : Move D s now later (.next p.ticket act) t := by
  cases act with
  | abort =>
      cases h
      exact .aborted found
  | check =>
      dsimp only [serve] at h
      split at h <;> cases h
      split
      · exact .refused found
      · exact .proceeded found rfl
  | lookup =>
      dsimp only [serve] at h
      split at h <;> cases h
      split
      · exact .refused found
      · rename_i seen
        exact .replayed found seen
      · exact .proceeded found rfl
  | flush =>
      dsimp only [serve] at h
      split at h <;> cases h
      split
      · exact .refused found
      · exact .proceeded found rfl
  | insertKey =>
      dsimp only [serve] at h
      split at h
      · split at h <;> cases h
        rename_i first
        split
        · exact .refused found
        · rename_i inserted
          exact .keyed found (by simpa using first) fun _ => free_of_writeKey inserted
      · cases h
  | commit =>
      dsimp only [serve] at h
      split at h <;> cases h
      rename_i ready
      unfold settle
      split
      · exact .refused found
      · rename_i written
        obtain ⟨domainName, grows⟩ := write_ok written
        exact .committed found ready grows

theorem move_of_advance {act : PostStatement} (h : advance D s now later act = some t) :
    Move D s now later act t := by
  cases act with
  | whole action =>
      dsimp only [advance] at h
      split at h
      · cases h
      · rename_i quiet
        obtain ⟨fleet, advances, rfl⟩ := Option.map_eq_some_iff.mp h
        refine .whole (standing_of_advance advances fun _ _ _ _ asks => quiet ?_)
          (effect_of_advance D advances)
        rw [asks]
        rfl
  | arrive p =>
      dsimp only [advance] at h
      split at h
      · rename_i fresh
        obtain ⟨posts, inserted, rfl⟩ := Option.map_eq_some_iff.mp h
        obtain ⟨free, rfl⟩ := Table.insert?_eq_some.mp inserted
        exact .arrived free (by simp [Post.holdsKey, fresh])
      · cases h
  | next ticket act =>
      obtain ⟨p, found, served⟩ := Option.bind_eq_some_iff.mp h
      obtain rfl := Table.key_of_find? found
      exact move_of_serve found served

theorem move_of_step {l : PostTurn} (h : step D s l = some t) :
    ∃ u, Move D s (s.fleet.clock + l.wait) (s.fleet.clock + l.wait + l.lapse) l.statement u ∧
      t = { u with fleet := { u.fleet with clock := s.fleet.clock + l.wait + l.lapse } } := by
  obtain ⟨u, hu, rfl⟩ := Option.map_eq_some_iff.mp h
  exact ⟨u, move_of_advance hu, rfl⟩

end Desk

/-! What is on record for a key. -/

/-- The key is on record with the digest of a payload, for a message that has the
given identifier. -/
def Database.Answers (db : Database) (scope : Nat × String) (digest publicId : String) : Prop :=
  ∃ row m, db.idempotencyKeys.find? scope = some row ∧ row.requestHash = digest ∧
    db.messages.find? row.messageId = some m ∧ m.publicId = publicId

/-- An answer that is stored with a key names the message that the key points at. -/
def Database.KeysPoint (db : Database) : Prop :=
  ∀ scope row id status, db.idempotencyKeys.find? scope = some row →
    row.responseBody = some (id, status) → ∃ m, db.messages.find? row.messageId = some m ∧
      m.publicId = id

/-- Keys stay on record, and messages keep their identifier. -/
structure Follows (before after : Database) : Prop where
  keys : ∀ scope row, before.idempotencyKeys.find? scope = some row →
    after.idempotencyKeys.find? scope = some row
  messages : ∀ id m, before.messages.find? id = some m →
    ∃ m', after.messages.find? id = some m' ∧ m'.publicId = m.publicId

theorem Follows.refl (db : Database) : Follows db db :=
  ⟨fun _ _ found => found, fun _ m found => ⟨m, found, rfl⟩⟩

theorem Follows.answers {before after : Database} (h : Follows before after)
    {scope : Nat × String} {digest publicId : String}
    (known : before.Answers scope digest publicId) :
    after.Answers scope digest publicId := by
  obtain ⟨row, m, found, same, message, rfl⟩ := known
  obtain ⟨m', kept, named⟩ := h.messages _ m message
  exact ⟨row, m', h.keys _ row found, same, kept, named⟩

section Grows
variable {D : Deployment} {p : Post} {m : Message} {now : Time} {opening : List Event}
  {before after : Database} (grows : Grows m opening (p.keyRows D m now) before after)
include grows

theorem Grows.message : after.messages.find? m.id = some m :=
  Table.find?_appended grows.inserted (List.mem_singleton_self m)

theorem Grows.follows : Follows before after where
  keys _ _ found := Table.find?_of_append grows.idempotencyKeys found
  messages _ found_m found := ⟨found_m, Table.find?_of_append grows.inserted found, rfl⟩

/-- The key of a request that commits was not on record, and is now, for its message. -/
theorem Grows.answers {scope : Nat × String} (carries : p.scope? = some scope) :
    before.idempotencyKeys.find? scope = none ∧
      after.Answers scope (D.hash (canonicalPayload p.request)) m.publicId := by
  obtain ⟨k, carried, rfl⟩ := Option.map_eq_some_iff.mp carries
  have mem := p.mem_keyRows D m now carried
  exact ⟨Table.free_of_append grows.idempotencyKeys mem, _, m,
    Table.find?_appended grows.idempotencyKeys mem, rfl, grows.message, rfl⟩

theorem Grows.keysPoint (points : before.KeysPoint) : after.KeysPoint := by
  intro scope row id status found answered
  have listed := Table.mem_of_find? found
  rw [Table.mem_def, grows.idempotencyKeys, List.mem_append] at listed
  rcases listed with old | new
  · have was := Table.find?_of_mem (t := before.idempotencyKeys) old
    rw [Table.key_of_find? found] at was
    obtain ⟨m', message, named⟩ := points scope row id status was answered
    exact ⟨m', Table.find?_of_append grows.inserted message, named⟩
  · obtain ⟨k, _, rfl⟩ := List.mem_map.mp new
    obtain ⟨rfl, rfl⟩ := Prod.mk.inj (Option.some.inj answered)
    exact ⟨m, grows.message, rfl⟩

end Grows

namespace Desk
variable {D : Deployment} {s t : Desk} {now later : Time} {act : PostStatement}

theorem Move.follows (e : Move D s now later act t) : Follows s.fleet.db t.fleet.db := by
  cases e with
  | whole standing effect =>
      refine ⟨fun _ _ found => ?_, fun id m found => ?_⟩
      · rw [standing.idempotencyKeys]
        exact found
      · obtain ⟨m', kept, same⟩ := effect.header found
        exact ⟨m', kept, same.publicId⟩
  | committed _ _ grows => exact grows.follows
  | _ => exact .refl _

theorem Move.keysPoint (e : Move D s now later act t) (points : s.fleet.db.KeysPoint) :
    t.fleet.db.KeysPoint := by
  cases e with
  | whole standing effect =>
      intro scope row id status found answered
      rw [standing.idempotencyKeys] at found
      obtain ⟨m, message, rfl⟩ := points scope row id status found answered
      obtain ⟨m', kept, same⟩ := effect.header message
      exact ⟨m', kept, same.publicId⟩
  | committed _ _ grows => exact grows.keysPoint points
  | _ => exact points

/-! The committed rows and the answers. -/

def onRecord (db : Database) (scope : Nat × String) : Nat :=
  (db.idempotencyKeys.find? scope).isSome.toNat

theorem onRecord_le {before after : Database} (h : Follows before after) (scope : Nat × String) :
    onRecord before scope ≤ onRecord after scope := by
  unfold onRecord
  cases found : before.idempotencyKeys.find? scope with
  | none => exact Nat.zero_le _
  | some row =>
      rw [h.keys scope row found]

/-- How often requests have committed a message under a key. -/
def committedUnder (t : Desk) (scope : Nat × String) : Nat :=
  t.commits.countP fun c => c.post.scope? = some scope

/-- What has been committed and answered under a key agrees with its row. -/
structure Consistent (D : Deployment) (start : Database) (t : Desk) : Prop where
  points : t.fleet.db.KeysPoint
  single : ∀ scope, onRecord start scope + t.committedUnder scope ≤ onRecord t.fleet.db scope
  committed : ∀ c ∈ t.commits, ∀ scope, c.post.scope? = some scope →
    t.fleet.db.Answers scope (D.hash (canonicalPayload c.post.request)) c.message.publicId
  answered : ∀ r ∈ t.responses, ∀ ok, r.result = .ok ok → ∀ scope, r.post.scope? = some scope →
    t.fleet.db.Answers scope (D.hash (canonicalPayload r.post.request)) ok.publicId

/-- A step that commits nothing. -/
theorem Consistent.kept {start : Database} (h : Consistent D start s)
    (e : Move D s now later act t) (commits : t.commits = s.commits)
    (responses : ∀ r ∈ t.responses, r ∈ s.responses ∨ ∀ ok, r.result = .ok ok →
      ∀ scope, r.post.scope? = some scope →
        t.fleet.db.Answers scope (D.hash (canonicalPayload r.post.request)) ok.publicId) :
    Consistent D start t where
  points := e.keysPoint h.points
  single scope := by
    unfold committedUnder
    rw [commits]
    exact Nat.le_trans (h.single scope) (onRecord_le e.follows scope)
  committed c mem scope carries := by
    rw [commits] at mem
    exact e.follows.answers (h.committed c mem scope carries)
  answered r mem ok success scope carries := by
    rcases responses r mem with old | new
    · exact e.follows.answers (h.answered r old ok success scope carries)
    · exact new ok success scope carries

theorem Consistent.move {start : Database} (h : Consistent D start s)
    (e : Move D s now later act t) : Consistent D start t := by
  have taken := e
  cases e with
  | whole | arrived | proceeded | keyed | aborted =>
      exact h.kept taken rfl fun r mem => .inl mem
  | refused =>
      refine h.kept taken rfl fun r mem => ?_
      rcases List.mem_append.mp mem with old | new
      · exact .inl old
      · obtain rfl := List.mem_singleton.mp new
        exact .inr fun ok success => (by cases success)
  | replayed found seen =>
      refine h.kept taken rfl fun r mem => ?_
      rcases List.mem_append.mp mem with old | new
      · exact .inl old
      · obtain rfl := List.mem_singleton.mp new
        refine .inr fun ok success scope carries => ?_
        cases success
        obtain ⟨k, row, id, status, carried, found, same, answered, rfl⟩ := replay_some seen
        obtain rfl : (_, k) = scope := by simpa [Post.scope?, carried] using carries
        obtain ⟨m, message, named⟩ := h.points _ row id status found answered
        exact ⟨row, m, found, same, message, named⟩
  | @committed p m flushedAt domainName db found _ grows =>
      refine ⟨taken.keysPoint h.points, fun scope => ?_, fun c mem scope carries => ?_,
        fun r mem ok success scope carries => ?_⟩
      · have before := h.single scope
        unfold committedUnder at before ⊢
        dsimp only
        rw [List.countP_append, List.countP_singleton]
        by_cases carries : p.scope? = some scope
        · -- the key was free, so nothing has been committed under it
          obtain ⟨free, row, _, found, _⟩ := grows.answers carries
          have unrecorded : onRecord s.fleet.db scope = 0 := by rw [onRecord, free]; rfl
          have one : onRecord db scope = 1 := by rw [onRecord, found]; rfl
          rw [if_pos (decide_eq_true carries), one]
          omega
        · rw [if_neg (by simpa using carries)]
          exact Nat.le_trans before (onRecord_le grows.follows scope)
      · rcases List.mem_append.mp mem with old | new
        · exact grows.follows.answers (h.committed c old scope carries)
        · obtain rfl := List.mem_singleton.mp new
          exact (grows.answers carries).2
      · rcases List.mem_append.mp mem with old | new
        · exact grows.follows.answers (h.answered r old ok success scope carries)
        · obtain rfl := List.mem_singleton.mp new
          cases success
          exact (grows.answers carries).2

theorem Consistent.reaches (h : Consistent D s.fleet.db s) (run : Reaches (step D) Any s t) :
    Consistent D s.fleet.db t := by
  refine run.invariant h fun r l u _ taken kept => ?_
  obtain ⟨v, move, rfl⟩ := move_of_step taken
  have next := kept.move move
  exact ⟨next.points, next.single, next.committed, next.answered⟩

/-- No request is being served or has been, and stored answers name their messages. -/
structure Idle (s : Desk) : Prop where
  posts : s.posts = Table.empty
  responses : s.responses = []
  commits : s.commits = []
  points : s.fleet.db.KeysPoint

theorem Idle.consistent (h : s.Idle) : Consistent D s.fleet.db s where
  points := h.points
  single scope := by simp [committedUnder, h.commits]
  committed c mem := by simp [h.commits] at mem
  answered r mem := by simp [h.responses] at mem

/-- However the requests of one project with one key interleave, at most one message
is ever committed for the key, every success returns its identifier, and a request
with another payload neither succeeds nor writes. -/
theorem one_message_per_key (injective : Function.Injective D.hash) (start : s.Idle)
    (run : Reaches (step D) Any s t) (scope : Nat × String) :
    onRecord s.fleet.db scope + t.committedUnder scope ≤ 1 ∧
    (∀ c ∈ t.commits, c.post.scope? = some scope → t.fleet.db.Answers scope
      (D.hash (canonicalPayload c.post.request)) c.message.publicId) ∧
    (∀ r ∈ t.responses, r.post.scope? = some scope → ∀ ok, r.result = .ok ok →
      t.fleet.db.Answers scope (D.hash (canonicalPayload r.post.request)) ok.publicId) ∧
    ∀ row stored, t.fleet.db.idempotencyKeys.find? scope = some row →
      row.requestHash = D.hash stored →
        (∀ r ∈ t.responses, r.post.scope? = some scope →
          canonicalPayload r.post.request ≠ stored → ∃ e, r.result = .error e) ∧
        ∀ c ∈ t.commits, c.post.scope? = some scope → canonicalPayload c.post.request = stored := by
  have kept := (Idle.consistent start).reaches run
  have agrees : ∀ row stored request publicId,
      t.fleet.db.idempotencyKeys.find? scope = some row → row.requestHash = D.hash stored →
      t.fleet.db.Answers scope (D.hash (canonicalPayload request)) publicId →
        canonicalPayload request = stored := by
    rintro row stored request publicId found same ⟨row', _, found', same', _⟩
    obtain rfl := Option.some.inj (found.symm.trans found')
    exact injective (same'.symm.trans same)
  refine ⟨?_, fun c mem => kept.committed c mem scope, fun r mem carries ok success =>
    kept.answered r mem ok success scope carries, fun row stored found same => ⟨?_, ?_⟩⟩
  · exact Nat.le_trans (kept.single scope) (by unfold onRecord; exact Bool.toNat_le _)
  · intro r mem carries other
    cases result : r.result with
    | error e => exact ⟨e, rfl⟩
    | ok ok =>
        exact absurd (agrees row stored _ _ found same
          (kept.answered r mem ok result scope carries)) other
  · intro c mem carries
    exact agrees row stored _ _ found same (kept.committed c mem scope carries)

/-! The wait for the other transaction. -/

/-- The flushed rows of keys: none is committed yet, and no two have one key. -/
structure Waits (t : Desk) : Prop where
  free : ∀ p ∈ t.posts, p.holdsKey = true → ∀ scope, p.scope? = some scope →
    t.fleet.db.idempotencyKeys.find? scope = none
  alone : ∀ p ∈ t.posts, ∀ q ∈ t.posts, p.holdsKey = true → q.holdsKey = true →
    p.scope? = q.scope? → p.ticket = q.ticket

/-- Fewer requests, on the same keys. -/
theorem Waits.fewer (h : s.Waits) (keys : t.fleet.db.idempotencyKeys = s.fleet.db.idempotencyKeys)
    (posts : ∀ p ∈ t.posts, p.holdsKey = true → p ∈ s.posts) : t.Waits where
  free p mem holds scope carries := by
    rw [keys]
    exact h.free p (posts p mem holds) holds scope carries
  alone p memP q memQ holdsP holdsQ :=
    h.alone p (posts p memP holdsP) q (posts q memQ holdsQ) holdsP holdsQ

theorem mem_proceed {ticket : Nat} {progress : Progress} {q : Post} :
    q ∈ (s.proceed ticket progress).posts ↔
      ∃ p ∈ s.posts, (if p.ticket = ticket then { p with progress := progress } else p) = q :=
  s.posts.mem_modify ticket (fun p => { p with progress := progress }) fun _ => rfl

/-- A post that has gone on, or one of the others. -/
theorem cases_of_proceed {p : Post} (found : s.posts.find? p.ticket = some p) {progress : Progress}
    {q : Post} (mem : q ∈ (s.proceed p.ticket progress).posts) :
    q = { p with progress := progress } ∨ q ∈ s.posts ∧ q.ticket ≠ p.ticket := by
  obtain ⟨r, there, rfl⟩ := mem_proceed.mp mem
  by_cases same : r.ticket = p.ticket
  · obtain rfl := Table.eq_of_key_eq there (Table.mem_of_find? found) same
    exact .inl (if_pos rfl)
  · rw [if_neg same]
    exact .inr ⟨there, same⟩

theorem Waits.move (h : s.Waits) (e : Move D s now later act t) : t.Waits := by
  cases e with
  | whole standing => exact h.fewer standing.idempotencyKeys fun p mem _ => mem
  | arrived fresh idle =>
      refine h.fewer rfl fun p mem holds => ?_
      dsimp only at mem
      rcases Table.mem_insert.mp mem with old | rfl
      · exact old
      · rw [idle] at holds
        cases holds
  | proceeded found idle =>
      refine h.fewer rfl fun q mem holds => ?_
      rcases cases_of_proceed found mem with rfl | ⟨old, _⟩
      · rw [idle] at holds
        cases holds
      · exact old
  | refused | replayed | aborted => exact h.fewer rfl fun p mem _ => (Table.mem_delete.mp mem).1
  | @keyed p m flushedAt found first free =>
      have apart : ∀ q ∈ s.posts, q.holdsKey = true → q.ticket ≠ p.ticket →
          q.scope? ≠ p.scope? := by
        intro q mem holds ne same
        have unheld := List.any_eq_false.mp first q mem
        simp [holds, ne, same] at unheld
      refine ⟨fun q mem holds scope carries => ?_, fun q memQ r memR holdsQ holdsR same => ?_⟩
      · rcases cases_of_proceed found mem with rfl | ⟨old, _⟩
        · exact free scope carries
        · exact h.free q old holds scope carries
      · rcases cases_of_proceed found memQ with rfl | ⟨oldQ, neQ⟩
        · rcases cases_of_proceed found memR with rfl | ⟨oldR, neR⟩
          · rfl
          · exact absurd same.symm (apart r oldR holdsR neR)
        · rcases cases_of_proceed found memR with rfl | ⟨oldR, neR⟩
          · exact absurd same (apart q oldQ holdsQ neQ)
          · exact h.alone q oldQ r oldR holdsQ holdsR same
  | @committed p m flushedAt domainName db found ready grows =>
      refine ⟨fun q mem holds scope carries => ?_, fun q memQ r memR holdsQ holdsR => ?_⟩
      · obtain ⟨old, ne⟩ := Table.mem_delete.mp mem
        have was := h.free q old holds scope carries
        cases now : db.idempotencyKeys.find? scope with
        | none => rfl
        | some row =>
            have listed := Table.mem_of_find? now
            rw [Table.mem_def, grows.idempotencyKeys, List.mem_append] at listed
            rcases listed with before | new
            · exact absurd (Table.key_of_find? now) (Table.find?_eq_none.mp was row before)
            · -- it would be the row of the request that commits, which held the same key
              obtain ⟨k, carried, rfl⟩ := List.mem_map.mp new
              have same : p.scope? = some scope := by
                rw [← Table.key_of_find? now, Post.scope?, Option.mem_toList.mp carried]
                rfl
              have holdsP : p.holdsKey = true := by simp [Post.holdsKey, ready, same]
              have one := h.alone q old p (Table.mem_of_find? found) holds holdsP
                (carries.trans same.symm)
              simp [one] at ne
      · exact h.alone q (Table.mem_delete.mp memQ).1 r (Table.mem_delete.mp memR).1 holdsQ holdsR

/-- The insert of a key waits long enough: at the commit its key is still free. -/
theorem key_free_at_commit (start : s.Idle) (run : Reaches (step D) Any s t) {p : Post}
    (mem : p ∈ t.posts) (holds : p.holdsKey = true) {scope : Nat × String}
    (carries : p.scope? = some scope) : t.fleet.db.idempotencyKeys.find? scope = none := by
  have waits : t.Waits := by
    refine run.invariant ?_ fun r l u _ taken kept => ?_
    · refine ⟨fun q mem => ?_, fun q mem => ?_⟩
      all_goals
        rw [start.posts] at mem
        exact absurd mem (Table.not_mem_empty q)
    · obtain ⟨v, move, rfl⟩ := move_of_step taken
      exact (kept.move move).fewer rfl fun q there _ => there
  exact waits.free p mem holds scope carries

/-! A request that nobody interferes with. -/

section Alone
variable {f : Fleet} {p : Post}

/-- One request, and no other. -/
def alone (f : Fleet) (p : Post) : Desk := ⟨f, Table.empty.insert p rfl, [], []⟩

theorem step_arrive (arrives : p.progress = .arrived) (wait : Nat) :
    step D ⟨f, Table.empty, [], []⟩ ⟨wait, 0, .arrive p⟩ =
      some (alone { f with clock := f.clock + wait } p) := by
  simp [step, advance, arrives, alone, Table.insert?]

theorem step_alone (act : PostStep) (lapse : Nat) :
    step D (alone f p) ⟨0, lapse, .next p.ticket act⟩ =
      ((alone f p).serve D p f.clock act).map fun t =>
        { t with fleet := { t.fleet with clock := f.clock + lapse } } := by
  have found : (alone f p).posts.find? p.ticket = some p :=
    Table.find?_of_mem (by simp [alone, Table.mem_def, Table.insert, Table.empty])
  simp [step, advance, found]
  rfl

theorem alone_proceed (progress : Progress) :
    (alone f p).proceed p.ticket progress = alone f { p with progress := progress } := by
  simp [alone, proceed, Table.modify, Table.update, Table.insert, Table.empty]

theorem alone_answer (result : Except Raised IngestResult) :
    (alone f p).answer p result = ⟨f, Table.empty, [⟨p, result⟩], []⟩ := by
  simp [alone, answer, close, Table.delete, Table.insert, Table.empty]

/-- Served to its end, the request leaves this store behind and its caller gets this
answer. -/
def Serves (D : Deployment) (f : Fleet) (p : Post) (lapse : Nat)
    (run : Except Raised IngestResult × Database) : Prop :=
  ∃ turns t, execute (step D) (alone f p) turns = some t ∧
    t.fleet = { f with db := run.2, clock := f.clock + lapse } ∧ t.posts = Table.empty ∧
    t.responses.map Response.result = [run.1]

theorem Serves.on (act : PostStep) (progress : Progress) {lapse : Nat}
    {run : Except Raised IngestResult × Database}
    (h : (alone f p).serve D p f.clock act = some ((alone f p).proceed p.ticket progress))
    (rest : Serves D f { p with progress := progress } lapse run) : Serves D f p lapse run := by
  obtain ⟨turns, t, runs, ends⟩ := rest
  refine ⟨⟨0, 0, .next p.ticket act⟩ :: turns, t, ?_, ends⟩
  have first : step D (alone f p) ⟨0, 0, .next p.ticket act⟩ =
      some (alone f { p with progress := progress }) := by
    rw [step_alone, h, alone_proceed]
    simp [alone]
  rw [execute, first]
  exact runs

theorem Serves.answered (act : PostStep) {result : Except Raised IngestResult} (lapse : Nat)
    (h : (alone f p).serve D p f.clock act = some ((alone f p).answer p result)) :
    Serves D f p lapse (result, f.db) := by
  refine ⟨[⟨0, lapse, .next p.ticket act⟩],
    ⟨{ f with clock := f.clock + lapse }, Table.empty, [⟨p, result⟩], []⟩, ?_, rfl, rfl, rfl⟩
  rw [execute, step_alone, h, alone_answer]
  rfl

theorem Serves.settled {m : Message} {flushedAt : Time} (lapse : Nat)
    (ready : p.progress = .keyed m flushedAt) :
    Serves D f p lapse ((sessionScope (p.write D m flushedAt) f.db).1.map fun _ =>
      ⟨m.publicId, MessageStatus.queued.value, false⟩,
      (sessionScope (p.write D m flushedAt) f.db).2) := by
  have commits : (alone f p).serve D p f.clock .commit =
      some ((alone f p).settle D p m flushedAt) := by simp only [serve, ready]
  rcases run : sessionScope (p.write D m flushedAt) f.db with ⟨e | u, db⟩
  · obtain rfl := storeAll_error _ _ _ _ _ _ _ _ run
    refine Serves.answered .commit lapse (commits.trans ?_)
    simp only [settle, alone, run, Except.map]
  · refine ⟨[⟨0, lapse, .next p.ticket .commit⟩],
      ⟨{ f with db := db, clock := f.clock + lapse }, Table.empty,
        [⟨p, .ok ⟨m.publicId, MessageStatus.queued.value, false⟩⟩], [⟨p, m⟩]⟩, ?_, rfl, rfl, rfl⟩
    rw [execute, step_alone, commits]
    simp [settle, alone, run, execute, Table.delete, Table.insert, Table.empty]

theorem alone_keyTaken : (alone f p).keyTaken p = false := by
  simp [alone, keyTaken, Table.insert, Table.empty]

theorem serves_flushed {m : Message} {flushedAt : Time} (lapse : Nat)
    (ready : p.progress = .flushed m flushedAt) {stored : Database}
    (store : storeMessage f.db p.principal m = .ok stored) :
    Serves D f p lapse ((sessionScope (p.write D m flushedAt) f.db).1.map fun _ =>
      ⟨m.publicId, MessageStatus.queued.value, false⟩,
      (sessionScope (p.write D m flushedAt) f.db).2) := by
  cases key : (sessionScope (p.writeKey D m flushedAt) f.db).1 with
  | error e =>
      have same : sessionScope (p.write D m flushedAt) f.db = (.error e, f.db) :=
        storeAll_error_of_key _ _ _ _ _ _ _ _ store key
      rw [same]
      refine Serves.answered .insertKey lapse ?_
      simp only [serve, ready, alone_keyTaken, Bool.false_eq_true, if_false]
      simp only [alone, key, Except.map]
  | ok u =>
      refine Serves.on .insertKey (.keyed m flushedAt) ?_
        (Serves.settled lapse rfl)
      simp only [serve, ready, alone_keyTaken, Bool.false_eq_true, if_false]
      simp only [alone, key]

theorem serves_unseen {parts : Parts} (lapse : Nat) (ready : p.progress = .unseen parts) :
    let m := p.message parts f.clock
    Serves D f p lapse ((sessionScope (p.write D m f.clock) f.db).1.map fun _ =>
      ⟨m.publicId, MessageStatus.queued.value, false⟩,
      (sessionScope (p.write D m f.clock) f.db).2) := by
  intro m
  cases store : storeMessage f.db p.principal m with
  | error e =>
      have same : sessionScope (p.write D m f.clock) f.db = (.error e, f.db) :=
        storeAll_error_of_message _ _ _ _ _ _ _ _ store
      rw [same]
      refine Serves.answered .flush lapse ?_
      simp only [serve, ready]
      simp only [alone, m, store, Except.map]
  | ok stored =>
      refine Serves.on .flush (.flushed m f.clock) ?_
        (serves_flushed lapse rfl store)
      simp only [serve, ready]
      simp only [alone, m, store]

theorem serves_vetted {parts : Parts} (lapse : Nat) (ready : p.progress = .vetted parts) :
    let m := p.message parts f.clock
    Serves D f p lapse (match p.replay D f.db with
      | .error e => (.error e, f.db)
      | .ok (some r) => (.ok r, f.db)
      | .ok none => ((sessionScope (p.write D m f.clock) f.db).1.map fun _ =>
          ⟨m.publicId, MessageStatus.queued.value, false⟩,
          (sessionScope (p.write D m f.clock) f.db).2)) := by
  intro m
  rcases seen : p.replay D f.db with e | (_ | r)
  · refine Serves.answered .lookup lapse ?_
    simp only [serve, ready, alone, seen]
  · refine Serves.on .lookup (.unseen parts) ?_ (serves_unseen lapse rfl)
    simp only [serve, ready, alone, seen]
  · refine Serves.answered .lookup lapse ?_
    simp only [serve, ready, alone, seen]

/-- The one step that a request is in the fleet, in the words of its statements. -/
theorem ingest_eq (p : Post) (now : Time) (db : Database) :
    sessionScope (ingestMessage D.rt D.hash D.idempotencyTtlHours p.principal p.request p.key
      p.draw now) db =
      match checkRequest D.rt db p.principal p.request with
      | .error e => (.error e, db)
      | .ok parts =>
          match p.replay D db with
          | .error e => (.error e, db)
          | .ok (some r) => (.ok r, db)
          | .ok none =>
              let m := p.message parts now
              ((sessionScope (p.write D m now) db).1.map fun _ =>
                ⟨m.publicId, MessageStatus.queued.value, false⟩,
                (sessionScope (p.write D m now) db).2) := by
  rw [ingestMessage_eq]
  cases checkRequest D.rt db p.principal p.request with
  | error e => rfl
  | ok parts => rfl

/-- Served without interruption, the statements of a request are that step, and its
caller is told what it returns. -/
theorem serves_ingest (arrives : p.progress = .arrived) (lapse : Nat) :
    Serves D f p lapse (sessionScope (ingestMessage D.rt D.hash D.idempotencyTtlHours p.principal
      p.request p.key p.draw f.clock) f.db) := by
  rw [ingest_eq]
  cases checks : checkRequest D.rt f.db p.principal p.request with
  | error e =>
      refine Serves.answered .check lapse ?_
      simp only [serve, arrives, alone, checks]
  | ok parts =>
      have rest := serves_vetted (D := D) (f := f) (p := { p with progress := .vetted parts })
        lapse rfl
      refine Serves.on .check (.vetted parts) ?_ rest
      simp only [serve, arrives, alone, checks]

end Alone

end Desk

/-! Three requests with one key: two at the same time, with different payloads, and
the first one again. -/
namespace Sample

def spellValue : PayloadValue → List Char
  | .text s => 't' :: spell s
  | .list l => 'l' :: delimited spell l
  | .object entries => 'o' :: delimited (fun p => spell p.1 ++ spell p.2) entries

theorem selfDelimiting_spellValue : SelfDelimiting spellValue := by
  intro a b rest rest' same
  cases a <;> cases b <;>
    first
      | exact absurd (List.head_eq_of_cons_eq same) (by decide)
      | have tails := List.tail_eq_of_cons_eq same
  · obtain ⟨rfl, after⟩ := selfDelimiting_spell _ _ rest rest' tails
    exact ⟨rfl, after⟩
  · obtain ⟨rfl, after⟩ := selfDelimiting_spell.list _ _ rest rest' tails
    exact ⟨rfl, after⟩
  · obtain ⟨rfl, after⟩ :=
      (selfDelimiting_spell.pair selfDelimiting_spell).list _ _ rest rest' tails
    exact ⟨rfl, after⟩

def spellPayload : List (String × PayloadValue) → List Char :=
  delimited fun p => spell p.1 ++ spellValue p.2

/-- A digest that tells all payloads apart, short on two of them. -/
def digest (payload : List (String × PayloadValue)) : String :=
  if payload = canonicalPayload (letter "ann@example.net" []) then "a"
  else if payload = canonicalPayload (letter "bob@example.net" []) then "b"
  else .ofList (spellPayload payload)

theorem digest_cases (x : List (String × PayloadValue)) :
    x = canonicalPayload (letter "ann@example.net" []) ∧ digest x = "a" ∨
      x = canonicalPayload (letter "bob@example.net" []) ∧ digest x = "b" ∨
      digest x = .ofList (spellPayload x) := by
  unfold digest
  split
  · exact .inl ⟨by assumption, rfl⟩
  · split
    · exact .inr (.inl ⟨by assumption, rfl⟩)
    · exact .inr (.inr rfl)

theorem digest_injective : Function.Injective digest := by
  have long : ∀ x, String.ofList (spellPayload x) ≠ "a" ∧ String.ofList (spellPayload x) ≠ "b" := by
    intro x
    cases x <;> constructor <;> intro same <;>
      exact absurd (List.head_eq_of_cons_eq (String.ofList_injective same)) (by decide)
  intro x y same
  rcases digest_cases x with ⟨isX, hx⟩ | ⟨isX, hx⟩ | hx <;>
    rcases digest_cases y with ⟨isY, hy⟩ | ⟨isY, hy⟩ | hy <;> rw [hx, hy] at same
  · exact isX.trans isY.symm
  · exact absurd same (by decide)
  · exact absurd same.symm (long y).1
  · exact absurd same (by decide)
  · exact isX.trans isY.symm
  · exact absurd same.symm (long y).2
  · exact absurd same (long x).1
  · exact absurd same (long x).2
  · exact (selfDelimiting_spell.pair selfDelimiting_spellValue).list.injective
      (String.ofList_injective same)

def injectiveDeployment : Deployment := { deployment with hash := digest }

def post (ticket : Nat) (recipient ulid : String) : Post where
  ticket := ticket
  principal := principal mailbox
  request := letter recipient []
  key := some "welcome-1"
  draw := ⟨ticket, ulid⟩
  progress := .arrived

def openDesk : Desk := ⟨fleet mailbox, Table.empty, [], []⟩

theorem openDesk_idle : openDesk.Idle := ⟨rfl, rfl, rfl, fun _ _ _ _ found => by cases found⟩

def turnOf (statement : PostStatement) : PostTurn := ⟨0, 0, statement⟩

/-- Both look the key up before either has written it. -/
def rivals : List PostTurn :=
  [.arrive (post 1 "ann@example.net" "A"), .arrive (post 2 "bob@example.net" "B"),
    .next 1 .check, .next 2 .check, .next 1 .lookup, .next 2 .lookup, .next 1 .flush,
    .next 2 .flush, .next 1 .insertKey, .next 1 .commit, .next 2 .insertKey,
    .arrive (post 3 "ann@example.net" "C"), .next 3 .check, .next 3 .lookup].map turnOf

end Sample

open Sample

/-- The second request fails, the third is told the identifier of the first, and one
message is committed. -/
theorem rivals_share_a_message :
    ∃ t : Desk, Reaches (Desk.step injectiveDeployment) Any openDesk t ∧
    t.responses.map (fun r => r.result.toOption.map IngestResult.publicId) =
      [some "email_A", none, some "email_A"] ∧
    t.committedUnder (1, "welcome-1") ≤ 1 := by
  have run : (execute (Desk.step injectiveDeployment) openDesk rivals).map (fun t =>
      t.responses.map fun r => r.result.toOption.map IngestResult.publicId) =
      some [some "email_A", none, some "email_A"] := by decide +kernel
  obtain ⟨reached, seen⟩ : Reaches (Desk.step injectiveDeployment) Any openDesk _ ∧ _ :=
    reaches_final _ run fun _ _ _ => trivial
  have single :=
    (Desk.one_message_per_key digest_injective openDesk_idle reached (1, "welcome-1")).1
  exact ⟨_, reached, seen, Nat.le_trans (Nat.le_add_left ..) single⟩

end Emaild
