import Emaild.Acceptance

/-!
Keys that have expired. The row of a key says until when it is to be honoured, and nothing
reads that: a request under a key that was used is answered or refused for good.
-/
namespace Emaild
open Relational Text

/-- The store as if the key had never been used. -/
def Database.withoutKey (db : Database) (scope : Nat × String) : Database :=
  { db with idempotencyKeys := db.idempotencyKeys.delete fun row => row.scope = scope }

theorem find?_withoutKey (db : Database) (scope : Nat × String) :
    (db.withoutKey scope).idempotencyKeys.find? scope = none := by
  refine Table.find?_eq_none.mpr fun row mem => ?_
  simpa using (Table.mem_delete.mp mem).2

section Unused
variable (rt : Runtime) (hash : List (String × PayloadValue) → String) (ttl : Nat)
  (principal : Principal) (request : SendEmailRequest) (k : String) (draw : IngestDraw)
  (now : Time) (db : Database)

/-- The request is handled as if its key had never been used: it ends in the same way, and an
answer leaves the same row of the key behind. -/
structure HandledAsUnused : Prop where
  result : (sessionScope (ingestMessage rt hash ttl principal request (some k) draw now) db).1 =
    (sessionScope (ingestMessage rt hash ttl principal request (some k) draw now)
      (db.withoutKey (principal.projectId, k))).1
  row : ∀ r, (sessionScope (ingestMessage rt hash ttl principal request (some k) draw now) db).1 =
      .ok r →
    (sessionScope (ingestMessage rt hash ttl principal request (some k) draw now)
        db).2.idempotencyKeys.find? (principal.projectId, k) =
      (sessionScope (ingestMessage rt hash ttl principal request (some k) draw now)
        (db.withoutKey (principal.projectId, k))).2.idempotencyKeys.find? (principal.projectId, k)

variable {rt hash ttl principal request k draw now db}

/-- Writing a key that is free fails only if it is too long. -/
theorem storeKey_of_free {row : String → IdempotencyKey} {s : Session Database}
    (free : s.working.idempotencyKeys.find? (row k).scope = none) :
    (∃ s', (storeKey rt (some k) row).exec s = (.ok ⟨⟩, s')) ∨
      ∃ s', (storeKey rt (some k) row).exec s = (.error .dataError, s') := by
  dsimp only [storeKey]
  split
  · exact .inr ⟨s, rfl⟩
  · rw [Tx.exec_bind_ok (Tx.exec_look s)]
    have inserted : s.working.idempotencyKeys.insert? (row k) =
        some (s.working.idempotencyKeys.insert (row k) free) := dif_pos free
    rw [inserted]
    exact .inl ⟨_, rfl⟩

/-- Step 5 under a key that is free fails with an exception of the libraries alone. -/
theorem storeAll_of_free {m : Message} {e : Raised} (nonempty : k ≠ "")
    (free : db.idempotencyKeys.find? (principal.projectId, k) = none)
    (failed : (sessionScope (storeAll rt hash ttl principal request (some k) now m) db).1 =
      .error e) : e.Library := by
  have carried : (some k).filter (· ≠ "") = some k := by simp [nonempty]
  rw [sessionScope_fst] at failed
  unfold storeAll at failed
  rw [Tx.exec_bind_ok (Tx.exec_look _), Tx.exec_bind, Tx.exec_lift] at failed
  dsimp only [Session.begin] at failed
  cases store : storeMessage db principal m with
  | error e' =>
      rw [store] at failed
      obtain rfl := Except.error.inj failed
      exact (storeMessage_raises db principal (fun _ => trivial) trivial trivial).raises e' store
  | ok stored =>
      obtain ⟨_, _, grows⟩ := storeMessage_ok store
      have sameKeys : stored.idempotencyKeys = db.idempotencyKeys :=
        Table.eq_of_rows (by rw [grows.idempotencyKeys, List.append_nil])
      rw [store] at failed
      dsimp only at failed
      rw [Tx.exec_bind_ok (Tx.exec_write _ _), carried] at failed
      rcases @storeKey_of_free rt k (keyRow hash ttl principal request now m) ⟨db, stored, false⟩
        (sameKeys ▸ free) with ⟨s', run⟩ | ⟨s', run⟩
      · rw [run] at failed
        cases failed
      · rw [run] at failed
        cases failed
        trivial

variable (rt) in
/-- Under a key that was used a request is answered again or refused, whatever the row says
about when it expires. -/
theorem replayIfSeen_of_seen (digest : String) {projectId : Nat} {row : IdempotencyKey}
    (seen : db.idempotencyKeys.find? (projectId, k) = some row) :
    (∃ r, replayIfSeen rt db projectId k digest = .ok (some r) ∧ r.replayed = true) ∨
      ∃ error, replayIfSeen rt db projectId k digest = .error (.api error) := by
  unfold replayIfSeen
  rw [seen]
  dsimp only
  split
  · exact .inr ⟨_, rfl⟩
  · split
    · exact .inr ⟨_, rfl⟩
    · exact .inl ⟨_, rfl, rfl⟩

/-- An expired key is like a new one exactly if the request does not get as far as its key. -/
theorem handledAsUnused_iff (nonempty : k ≠ "") {row : IdempotencyKey}
    (seen : db.idempotencyKeys.find? (principal.projectId, k) = some row) :
    HandledAsUnused rt hash ttl principal request k draw now db ↔
      ∃ e, checkRequest rt db principal request = .error e := by
  have carried : (some k).filter (· ≠ "") = some k := by simp [nonempty]
  have free := find?_withoutKey db (principal.projectId, k)
  have checks : checkRequest rt (db.withoutKey (principal.projectId, k)) principal request =
      checkRequest rt db principal request := rfl
  have fresh : replayIfSeen rt (db.withoutKey (principal.projectId, k)) principal.projectId k
      (hash (canonicalPayload request)) = .ok none := by rw [replayIfSeen, free]
  constructor
  · intro unused
    cases checked : checkRequest rt db principal request with
    | error e => exact ⟨e, rfl⟩
    | ok parts =>
        obtain ⟨displayName, identity, toList, ccList, bccList⟩ := parts
        have result := unused.result
        rw [ingestMessage_eq, ingestMessage_eq, checks, checked, carried] at result
        dsimp only [Option.elim] at result
        rw [fresh] at result
        dsimp only at result
        have library := @storeAll_of_free rt hash ttl principal request k now
          (db.withoutKey (principal.projectId, k))
            (newMessage principal request identity displayName
            toList ccList bccList draw now)
        generalize (sessionScope (storeAll rt hash ttl principal request (some k) now
          (newMessage principal request identity displayName toList ccList bccList draw now))
          (db.withoutKey (principal.projectId, k))).1 = run at result library
        -- an answer is a replay, and a refusal is none that a write ends with
        rcases replayIfSeen_of_seen rt (hash (canonicalPayload request)) seen with
          ⟨r, answered, replayed⟩ | ⟨error, refused⟩
        · rw [answered] at result
          cases run with
          | ok =>
              obtain rfl := Except.ok.inj result
              cases replayed
          | error => cases result
        · rw [refused] at result
          cases run with
          | ok => cases result
          | error e =>
              obtain rfl := Except.error.inj result
              exact (library nonempty free rfl).elim
  · rintro ⟨e, refused⟩
    have ends : ∀ db', checkRequest rt db' principal request = .error e →
        sessionScope (ingestMessage rt hash ttl principal request (some k) draw now) db' =
          (.error e, db') := fun db' h => by rw [ingestMessage_eq, h]
    refine ⟨by rw [ends db refused, ends _ (checks.trans refused)], fun r answered => ?_⟩
    rw [ends db refused] at answered
    cases answered

end Unused

namespace Sample

/-- The row of a key that expired an hour ago. -/
def expiredRow : IdempotencyKey :=
  { projectId := 1, key := "k1", requestHash := "", messageId := 7, responseStatus := 200
    responseBody := some ("email_Z", "queued"), expiresAt := 0 }

def expiredStore : Database :=
  { store mailbox with idempotencyKeys := Table.empty.insert expiredRow rfl }

/-- How a request under the key ends. -/
def reposted (request : SendEmailRequest) (digest : String) :
    Except Raised IngestResult × Database :=
  sessionScope (ingestMessage runtime (fun _ => digest) 24 (principal mailbox) request (some "k1")
    ⟨8, "A"⟩ (hours 1)) expiredStore

end Sample

open Sample

/-- A letter to nobody is refused as it is under a new key. -/
theorem invalid_letter_ignores_its_key : HandledAsUnused runtime (fun _ => "") 24
    (principal mailbox) (letter "nobody" []) "k1" ⟨8, "A"⟩ (hours 1) expiredStore :=
  (handledAsUnused_iff (by decide) (show expiredStore.idempotencyKeys.find? (1, "k1") =
    some expiredRow from rfl)).mpr ⟨_, rfl⟩

/-- Under the expired key the same body is answered with the message of old, and another is
refused. -/
theorem expired_key_is_honoured : expiredRow ∈ expiredStore.idempotencyKeys ∧
    expiredRow.expiresAt < hours 1 ∧
    (reposted (letter "ann@example.net" []) "").1 = .ok ⟨"email_Z", "queued", true⟩ ∧
    (reposted (letter "bea@example.net" []) "other").1 = .error (.api {
      errorType := .idempotencyKeyReused
      message := "Idempotency-Key 'k1' was already used with a different request body. " ++
        "Use a new key for a different message."
      param := some "Idempotency-Key" }) :=
  ⟨List.mem_singleton_self _, by decide, by decide, by decide⟩

end Emaild
