import Mathlib.Data.List.Dedup
import Emaild.Acceptance

/-!
What the checks of a request leave open about the row that is stored for it: an address
may stand in two of its lists, and a value may be too long for its column.
-/
namespace Emaild
open Relational Text

/-! Who is addressed. -/

section Recipients
variable {rt : Runtime}

theorem normaliseRecipientsFrom_spec {field : String} {values out result : List String}
    (run : normaliseRecipientsFrom rt field out values = .ok result) (distinct : out.Nodup) :
    result.Nodup ∧ ∀ a, a ∈ result ↔ a ∈ out ∨ ∃ raw ∈ values, rt.canonical raw = a := by
  induction values generalizing out with
  | nil =>
      cases run
      exact ⟨distinct, fun a => by simp⟩
  | cons raw values ih =>
      obtain ⟨-, run⟩ := normaliseRecipientsFrom_cons run
      split at run
      · rename_i seen
        obtain ⟨nodup, spec⟩ := ih run distinct
        refine ⟨nodup, fun a => (spec a).trans ?_⟩
        rw [List.exists_mem_cons_iff, ← or_assoc]
        exact or_congr_left ⟨.inl, fun h => h.elim id fun same => same ▸ seen⟩
      · rename_i new
        obtain ⟨nodup, spec⟩ := ih run (List.concat_eq_append ▸ distinct.concat new)
        refine ⟨nodup, fun a => (spec a).trans ?_⟩
        rw [List.exists_mem_cons_iff, ← or_assoc, List.mem_append, List.mem_singleton,
          eq_comm (a := a)]

/-- A list of recipients is normalised without repetitions. -/
theorem normaliseRecipients_spec {field : String} {values result : List String}
    (run : normaliseRecipients rt values field = .ok result) :
    result.Nodup ∧ ∀ a, a ∈ result ↔ ∃ raw ∈ values, rt.canonical raw = a := by
  have spec := normaliseRecipientsFrom_spec run List.nodup_nil
  simpa using spec

variable (rt) in
/-- Some address of the one list is, in normal form, one of the other. -/
def Overlap (xs ys : List String) : Prop := ∃ x ∈ xs, ∃ y ∈ ys, rt.canonical x = rt.canonical y

variable (rt) in
/-- The request names an address in two of its lists. -/
def SendEmailRequest.NamesTwice (request : SendEmailRequest) : Prop :=
  Overlap rt request.to (request.cc.getD []) ∨ Overlap rt request.to (request.bcc.getD []) ∨
    Overlap rt (request.cc.getD []) (request.bcc.getD [])

instance (xs ys : List String) : Decidable (Overlap rt xs ys) :=
  inferInstanceAs (Decidable (∃ x ∈ xs, _))

instance (request : SendEmailRequest) : Decidable (request.NamesTwice rt) :=
  inferInstanceAs (Decidable (_ ∨ _))

theorem disjoint_iff_not_overlap {xs ys as bs : List String}
    (left : ∀ a, a ∈ as ↔ ∃ x ∈ xs, rt.canonical x = a)
    (right : ∀ b, b ∈ bs ↔ ∃ y ∈ ys, rt.canonical y = b) :
    as.Disjoint bs ↔ ¬ Overlap rt xs ys := by
  constructor
  · rintro apart ⟨x, hx, y, hy, same⟩
    exact apart ((left _).mpr ⟨x, hx, rfl⟩) ((right _).mpr ⟨y, hy, same.symm⟩)
  · intro apart a ha hb
    obtain ⟨x, hx, rfl⟩ := (left a).mp ha
    obtain ⟨y, hy, same⟩ := (right _).mp hb
    exact apart ⟨x, hx, y, hy, same.symm⟩

/-- The envelope repeats an address exactly if two lists share one. -/
theorem Vetted.nodup_iff {db : Database} {principal : Principal} {request : SendEmailRequest}
    {displayName : Option String} {identity : SenderIdentity} {toList ccList bccList : List String}
    (v : Vetted rt db principal request displayName identity toList ccList bccList) :
    (toList ++ ccList ++ bccList).Nodup ↔ ¬ request.NamesTwice rt := by
  obtain ⟨toDistinct, toSpec⟩ := normaliseRecipients_spec v.toNormal
  obtain ⟨ccDistinct, ccSpec⟩ := normaliseRecipients_spec v.ccNormal
  obtain ⟨bccDistinct, bccSpec⟩ := normaliseRecipients_spec v.bccNormal
  rw [List.nodup_append', List.nodup_append', List.disjoint_append_left,
    disjoint_iff_not_overlap toSpec ccSpec, disjoint_iff_not_overlap toSpec bccSpec,
    disjoint_iff_not_overlap ccSpec bccSpec, SendEmailRequest.NamesTwice]
  tauto

end Recipients

section Stored
variable (rt : Runtime) (hash : List (String × PayloadValue) → String) (ttl : Nat)
  (principal : Principal) (request : SendEmailRequest) (key : Option String) (draw : IngestDraw)
  (now : Time) (db : Database)

/-- What the row of a request that stores a message was made of. -/
theorem vetted_of_stored {id status : String} {after : Database} {m : Message}
    (accepted : sessionScope (ingestMessage rt hash ttl principal request key draw now) db =
      (.ok ⟨id, status, false⟩, after)) (stored : after.messages.find? draw.messageId = some m) :
    ∃ displayName identity toList ccList bccList,
      Vetted rt db principal request displayName identity toList ccList bccList ∧
      m = newMessage principal request identity displayName toList ccList bccList draw now := by
  have ends := ingestMessage_ends rt hash ttl principal request key draw now db
  dsimp only at ends
  rw [accepted] at ends
  cases ends with
  | stored vetted row grows =>
      subst row
      have there := (grows.messages draw.messageId).trans (if_pos rfl)
      exact ⟨_, _, _, _, _, vetted, Option.some.inj (stored.symm.trans there)⟩

/-- The envelope of a new message has no address twice, and the count is that of its distinct
addresses, exactly if the request names no address in two of its lists. -/
theorem stored_distinct_iff {id status : String} {after : Database} {m : Message}
    (accepted : sessionScope (ingestMessage rt hash ttl principal request key draw now) db =
      (.ok ⟨id, status, false⟩, after)) (stored : after.messages.find? draw.messageId = some m) :
    (m.envelopeRecipients.Nodup ∧ m.recipientCount = m.envelopeRecipients.dedup.length) ↔
      ¬ request.NamesTwice rt := by
  obtain ⟨displayName, identity, toList, ccList, bccList, vetted, rfl⟩ :=
    vetted_of_stored rt hash ttl principal request key draw now db accepted stored
  have count : (newMessage principal request identity displayName toList ccList bccList draw
      now).recipientCount = (toList ++ ccList ++ bccList).length := by
    rw [List.length_append, List.length_append]
    rfl
  rw [newMessage_recipients, count, ← vetted.nodup_iff]
  refine ⟨And.left, fun distinct => ⟨distinct, ?_⟩⟩
  rw [distinct.dedup]

end Stored

/-! What fits into its column. -/

theorem displayName_of_parseFromAddress {rt : Runtime} {fromValue address : String}
    {name : Option String} (parsed : parseFromAddress rt fromValue = .ok (name, address)) :
    orEmpty name = strip (rt.parseaddr fromValue).1 := by
  obtain ⟨-, -, -, rfl⟩ := parseFromAddress_eq_ok.mp parsed
  generalize strip (rt.parseaddr fromValue).1 = given
  by_cases empty : given = "" <;> simp [orEmpty, empty]

theorem displayName_of_authorizeSender {rt : Runtime} {principal : Principal} {fromValue : String}
    {displayName : Option String} {identity : SenderIdentity}
    (h : authorizeSender rt principal fromValue = .ok (displayName, identity)) :
    orEmpty displayName = strip (rt.parseaddr fromValue).1 := by
  unfold authorizeSender at h
  split at h
  · cases h
  · rename_i name address parsed
    split at h
    · cases h
    · split at h
      · cases h
      · split at h
        · cases h
          exact displayName_of_parseFromAddress parsed
        · cases h

/-- The values that a request stores fit into their columns, and the write does not fail for
their length. -/
structure WritesFit (rt : Runtime) (hash : List (String × PayloadValue) → String) (ttl : Nat)
    (principal : Principal) (request : SendEmailRequest) (key : Option String) (draw : IngestDraw)
    (now : Time) (db : Database) (m : Message) : Prop where
  rowFits : m.fits = true
  keyFits : ∀ k, key.filter (· ≠ "") = some k →
    (keyRow hash ttl principal request now m k).key.length ≤ 255 ∧
      (keyRow hash ttl principal request now m k).requestHash.length ≤ 64
  written : (sessionScope (ingestMessage rt hash ttl principal request key draw now) db).1 ≠
    .error .dataError

section Columns
variable {rt : Runtime} {hash : List (String × PayloadValue) → String} {ttl : Nat}
  {principal : Principal} {request : SendEmailRequest} {key : Option String} {draw : IngestDraw}
  {now : Time} {db : Database} {displayName : Option String} {identity : SenderIdentity}
  {toList ccList bccList : List String} {m : Message}

theorem storeKey_raises {row : String → IdempotencyKey} (short : ∀ k, key = some k →
    k.length ≤ 255 ∧ (row k).requestHash.length ≤ 64) :
    Tx.Raises (· ≠ .dataError) (storeKey rt key row) := by
  cases key with
  | none => exact .pure _
  | some k =>
      obtain ⟨keyFits, hashFits⟩ := short k rfl
      dsimp only [storeKey]
      rw [if_neg (by omega)]
      refine .bind (.of_ok fun s => ⟨_, _, Tx.exec_look s⟩) fun s => ?_
      split
      · exact .of_ok fun s => ⟨_, _, Tx.exec_write _ s⟩
      · exact .bind (.of_ok fun s => ⟨_, _, Tx.exec_rollback s⟩) fun _ => .throw (by simp)

variable (rt ttl principal now) in
theorem storeAll_raises (fits : m.fits = true) (short : ∀ k, key.filter (· ≠ "") = some k →
      (keyRow hash ttl principal request now m k).key.length ≤ 255 ∧
        (keyRow hash ttl principal request now m k).requestHash.length ≤ 64) :
    Tx.Raises (· ≠ .dataError) (storeAll rt hash ttl principal request key now m) :=
  .bind (.of_ok fun s => ⟨_, _, Tx.exec_look s⟩) fun _ =>
    .bind (.lift (storeMessage_raises _ _ (fun long => absurd (long.symm.trans fits) nofun)
      (by decide) (by decide))) fun _ =>
      .bind (.of_ok fun s => ⟨_, _, Tx.exec_write _ s⟩) fun _ => storeKey_raises short

theorem fits_newMessage (column : identity.mailbox.address.length ≤ 320)
    (ulid : draw.ulid.length = 26) :
    (newMessage principal request identity displayName toList ccList bccList draw now).fits = true ↔
      (orEmpty displayName).length ≤ 200 ∧ (orEmpty request.replyTo).length ≤ 320 := by
  have identifier : "email_".length + draw.ulid.length ≤ 40 := by
    rw [ulid]
    decide
  have returned : (orEmpty (some identity.mailbox.address)).length ≤ 320 := column
  simp [Message.fits, newMessage, identifier, column, returned]

/-- A request that passes the checks, under a key that is new, is written exactly if its
display name, its reply address and its key are short enough. -/
theorem writesFit_iff
    (vetted : Vetted rt db principal request displayName identity toList ccList bccList)
    (new : ((key.filter (· ≠ "")).elim (.ok none) fun k =>
      replayIfSeen rt db principal.projectId k (hash (canonicalPayload request))) = .ok none)
    (column : ∀ row ∈ principal.mailboxes.rows, row.2.mailbox.address.length ≤ 320)
    (ulid : draw.ulid.length = 26) (digest : ∀ payload, (hash payload).length = 64) :
    WritesFit rt hash ttl principal request key draw now db
        (newMessage principal request identity displayName toList ccList bccList draw now) ↔
      (strip (rt.parseaddr request.from).1).length ≤ 200 ∧
        (orEmpty request.replyTo).length ≤ 320 ∧ (orEmpty key).length ≤ 255 := by
  obtain ⟨⟨address, known⟩, _⟩ := authorizeSender_ok vetted.authorized
  have stored : identity.mailbox.address.length ≤ 320 := by
    obtain ⟨row, found, rfl⟩ := Option.map_eq_some_iff.mp known
    exact column row (Table.mem_of_find? found)
  have fits :=
    @fits_newMessage principal request draw now displayName identity toList ccList bccList
    stored ulid
  rw [displayName_of_authorizeSender vetted.authorized] at fits
  have keys : (∀ k, key.filter (· ≠ "") = some k → k.length ≤ 255) ↔
      (orEmpty key).length ≤ 255 := by
    cases key with
    | none => simp [orEmpty]
    | some k => by_cases empty : k = "" <;> simp [orEmpty, empty]
  rw [← keys, ← and_assoc, ← fits]
  constructor
  · intro writes
    exact ⟨writes.rowFits, fun k carries => (writes.keyFits k carries).1⟩
  · rintro ⟨rowFits, short⟩
    have keyFits := fun k carries => And.intro (short k carries) (Nat.le_of_eq (digest
      (canonicalPayload request)))
    refine ⟨rowFits, keyFits, ?_⟩
    rw [ingestMessage_eq, checkRequest_eq_ok.mpr vetted, new]
    dsimp only
    rw [sessionScope_fst]
    have raises := storeAll_raises rt ttl principal now rowFits keyFits (.begin db)
    generalize Tx.exec _ (.begin db) = run at raises ⊢
    obtain ⟨e | _, s'⟩ := run
    · exact fun failed => raises e s' rfl (Except.error.inj failed)
    · exact fun failed => nomatch failed

end Columns

namespace Sample

/-- Ann is addressed twice. -/
def annTwice : SendEmailRequest :=
  { letter "ann@example.net" [] with cc := some ["ann@example.net"] }

/-- How a request of the shop ends. -/
def storing (request : SendEmailRequest) : Except Raised IngestResult × Database :=
  sessionScope (ingestMessage runtime (fun _ => "") 24 (principal mailbox) request none ⟨1, "A"⟩ 0)
    (store mailbox)

def ulid : String := "01JAAAAAAAAAAAAAAAAAAAAAAA"

def zeros : String := "0000000000000000000000000000000000000000000000000000000000000000"

theorem ann_vetted : Vetted runtime (store mailbox) (principal mailbox)
    (letter "ann@example.net" []) none ⟨mailbox, domain⟩ ["ann@example.net"] [] [] :=
  checkRequest_eq_ok.mp (by decide)

/-- How a letter to Ann ends under a key. -/
def keyed (key : String) : Except Raised IngestResult × Database :=
  sessionScope
    (ingestMessage runtime (fun _ => zeros) 24 (principal mailbox) (letter "ann@example.net" [])
    (some key) ⟨1, ulid⟩ 0) (store mailbox)

def keyOf (n : Nat) : String := .ofList (List.replicate n 'k')

theorem keyOf_length (n : Nat) : (keyOf n).length = n := by simp [keyOf]

theorem keyOf_carried {n : Nat} (positive : 0 < n) :
    (some (keyOf n)).filter (· ≠ "") = some (keyOf n) := by
  have nonempty : keyOf n ≠ "" := fun empty => by
    have length := keyOf_length n
    rw [empty] at length
    exact absurd length (Nat.ne_of_lt positive)
  rw [Option.filter_some, if_pos (decide_eq_true nonempty)]

end Sample

open Sample

/-- A letter to two people, whose addresses are spelled twice. -/
theorem stored_distinct_ann_bea : ∃ m,
    (storing (letter "ann@example.net" ["bea@example.net", "ann@example.net"])).2.messages.find? 1 =
      some m ∧ m.envelopeRecipients.Nodup ∧
      m.recipientCount = m.envelopeRecipients.dedup.length := by
  obtain ⟨m, stored⟩ := Option.isSome_iff_exists.mp (show ((storing (letter "ann@example.net"
    ["bea@example.net", "ann@example.net"])).2.messages.find? 1).isSome = true by decide)
  have accepted : (storing (letter "ann@example.net" ["bea@example.net", "ann@example.net"])).1 =
      .ok ⟨"email_A", "queued", false⟩ := by decide
  exact ⟨m, stored, (stored_distinct_iff runtime _ _ _ _ _ _ _ _ (Prod.ext accepted rfl)
    stored).mpr (by decide)⟩

/-- Who is named as a recipient and for a copy is in the envelope twice. -/
theorem ann_is_addressed_twice : ∃ m, (storing annTwice).1 = .ok ⟨"email_A", "queued", false⟩ ∧
    (storing annTwice).2.messages.find? 1 = some m ∧
    m.envelopeRecipients = ["ann@example.net", "ann@example.net"] ∧ m.recipientCount = 2 := by
  obtain ⟨m, stored⟩ := Option.isSome_iff_exists.mp
    (show ((storing annTwice).2.messages.find? 1).isSome = true by decide)
  have shown : ((storing annTwice).2.messages.find? 1).map (fun m =>
      (m.envelopeRecipients, m.recipientCount)) =
        some (["ann@example.net", "ann@example.net"], 2) := by decide
  rw [stored, Option.map_some, Option.some.injEq] at shown
  exact ⟨m, by decide, stored, congrArg Prod.fst shown, congrArg Prod.snd shown⟩

/-- A letter under a short key. -/
theorem short_key_fits : WritesFit runtime (fun _ => zeros) 24 (principal mailbox)
    (letter "ann@example.net" []) (some "k1") ⟨1, ulid⟩ 0 (store mailbox)
    (newMessage (principal mailbox) (letter "ann@example.net" []) ⟨mailbox, domain⟩ none
      ["ann@example.net"] [] [] ⟨1, ulid⟩ 0) := by
  have column : ∀ row ∈ (principal mailbox).mailboxes.rows,
      row.2.mailbox.address.length ≤ 320 := by decide
  have digest : zeros.length = 64 := by decide
  exact (writesFit_iff ann_vetted rfl column (by decide) fun _ => digest).mpr (by decide)

/-- A key of 256 characters passes every check and fails the write. -/
theorem long_key_is_not_written :
    (checkRequest runtime (store mailbox) (principal mailbox)
      (letter "ann@example.net" [])).isOk = true ∧ (keyOf 256).length = 256 ∧
    (keyed (keyOf 256)).1 = .error .dataError := by
  refine ⟨by decide, keyOf_length 256, ?_⟩
  have refused (row : String → IdempotencyKey) : (sessionScope (storeKey runtime
      ((some (keyOf 256)).filter (· ≠ "")) row) (store mailbox)).1 = .error .dataError := by
    rw [keyOf_carried (by decide)]
    dsimp only [storeKey]
    rw [if_pos (.inl (by rw [keyOf_length]; decide))]
    rfl
  obtain ⟨stored, kept⟩ : ∃ stored, storeMessage (store mailbox) (principal mailbox)
      (newMessage (principal mailbox) (letter "ann@example.net" []) ⟨mailbox, domain⟩ none
        ["ann@example.net"] [] [] ⟨1, ulid⟩ 0) = .ok stored := ⟨_, rfl⟩
  have failed := storeAll_error_of_key runtime (fun _ => zeros) 24 (principal mailbox)
    (letter "ann@example.net" []) (some (keyOf 256)) 0 (store mailbox) kept (refused _)
  have fresh :
      replayIfSeen runtime (store mailbox) (principal mailbox).projectId (keyOf 256) zeros =
      .ok none := rfl
  rw [keyed, ingestMessage_eq, checkRequest_eq_ok.mpr ann_vetted, keyOf_carried (by decide)]
  dsimp only [Option.elim]
  rw [fresh, failed]
  rfl

end Emaild
