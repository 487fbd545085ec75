import Emaild.Recording
import Emaild.Smtp.Connections

/-!
The adapter of test mode against the one that speaks SMTP. Both are asked to deliver the same
message to a server that refuses some of its recipients, the one in earnest, the other by what
it was told; the worker records what either reports.
-/
namespace Emaild
open Relational Text

/-- What the sink remembers of a message. -/
structure SinkEntry where
  publicId : String
  host : String
  envelopeFrom : String
  recipients : List String
  subject : Option String
  size : Nat
  messageId : String

structure SinkAdapter where
  sent : List SinkEntry := []
  failWith : Option (Option Int × String) := none
  failRecipients : Dict String Reply := Table.empty

/-- The recipients that are refused, in their order. -/
def refusals (refuse : Dict String Reply) (recipients : List String) : List (String × Reply) :=
  recipients.filterMap fun r => refuse.find? r

def sinkAccepted : String := "sink: accepted (nothing was actually sent)"

/-- `SinkAdapter.send`, once the message has been built. -/
def SinkAdapter.send (a : SinkAdapter) (m : OutboundMessage) (host messageId : String)
    (size : Nat) : DeliveryResult × SinkAdapter :=
  let entry : SinkEntry :=
    ⟨m.publicId, host, m.envelopeFrom, m.envelopeRecipients, m.subject, size, messageId⟩
  let a := { a with sent := a.sent ++ [entry] }
  match a.failWith with
  | some (code, text) => ({ success := false, code := code, response := some text }, a)
  | none =>
      let refused := Dict.ofList (refusals a.failRecipients m.envelopeRecipients)
      let accepted := m.envelopeRecipients.filter fun r => (refused.find? r).isNone
      ({ success := !accepted.isEmpty
         code := some (if accepted.isEmpty then 550 else 250)
         response := some sinkAccepted
         refused := refused
         acceptedRecipients := accepted }, a)

/-- What the client library makes of a server that refuses some recipients: it returns the
refused ones with the answer to the message, or raises if there is no other. -/
def refusing (refuse : Dict String Reply) (recipients : List String) (response : String) :
    WireOutcome :=
  if recipients.all fun r => (refuse.find? r).isSome then
    .recipientsRefused (refusals refuse recipients)
  else .returned (Dict.ofList (refusals refuse recipients)) response

/-- The refusal that stands for a message none of whose recipients is accepted. -/
def firstRefusal (refuse : Dict String Reply) (recipients : List String) : Reply :=
  match refusals refuse recipients with
  | [] => (550, "recipients refused")
  | (_, reply) :: _ => reply

section Results
variable {refuse : Dict String Reply} {recipients : List String}

theorem mem_refusals {p : String × Reply} :
    p ∈ refusals refuse recipients ↔ p.1 ∈ recipients ∧ refuse.find? p.1 = some p := by
  unfold refusals
  rw [List.mem_filterMap]
  constructor
  · rintro ⟨r, mem, found⟩
    obtain rfl := Table.key_of_find? found
    exact ⟨mem, found⟩
  · rintro ⟨mem, found⟩
    exact ⟨p.1, mem, found⟩

/-- The refused ones are those that the server refuses. -/
theorem find?_refusals {r : String} (mem : r ∈ recipients) :
    (Dict.ofList (refusals refuse recipients)).find? r = refuse.find? r := by
  cases found : refuse.find? r with
  | none =>
      by_contra taken
      obtain ⟨p, found'⟩ := Option.ne_none_iff_exists'.mp taken
      obtain rfl := Table.key_of_find? found'
      have refused := (mem_refusals.mp (Dict.mem_of_find?_ofList found')).2
      rw [found] at refused
      cases refused
  | some p =>
      obtain rfl := Table.key_of_find? found
      have taken := Dict.find?_ofList_ne_none (mem_refusals.mpr ⟨mem, found⟩)
      obtain ⟨q, found'⟩ := Option.ne_none_iff_exists'.mp taken
      have same := (mem_refusals.mp (Dict.mem_of_find?_ofList found')).2
      have key : q.1 = p.1 := Table.key_of_find? found'
      rw [key, found] at same
      cases same
      exact found'

/-- Whoever is refused is reported. -/
theorem nobody_of_unnamed (all : ∀ r ∈ recipients, refuse.find? r ≠ none)
    (unnamed : (Dict.ofList (refusals refuse recipients)).rows = []) : recipients = [] := by
  refine List.eq_nil_iff_forall_not_mem.mpr fun r mem => all r mem ?_
  rw [← find?_refusals mem, Table.find?, unnamed, List.find?_nil]

theorem accepted_refusals :
    (recipients.filter fun r =>
      ((Dict.ofList (refusals refuse recipients)).find? r).isNone) =
      recipients.filter fun r => (refuse.find? r).isNone :=
  List.filter_congr fun r mem => by rw [find?_refusals mem]

/-- The first entry of a dictionary stays the first one. -/
theorem head?_set {d : Dict String Reply} {k : String} {b : Reply} {p : String × Reply}
    (first : d.rows.head? = some p) (same : k = p.1 → b = p.2) :
    (Dict.set d k b).rows.head? = some p := by
  obtain ⟨rest, rows⟩ := List.head?_eq_some_iff.mp first
  unfold Dict.set
  split
  · simp [Table.insert, rows]
  · simp only [Table.modify, Table.update, rows, List.map_cons, List.head?_cons]
    by_cases here : p.1 = k
    · subst here
      rw [same rfl]
      simp
    · simp [here]

/-- The first refusal is the first one that is reported. -/
theorem head_refusals (refuse : Dict String Reply) (recipients : List String) :
    (Dict.ofList (refusals refuse recipients)).rows.head? =
      (refusals refuse recipients).head? := by
  suffices general : ∀ (l : List (String × Reply)) (d : Dict String Reply) (p : String × Reply),
      d.rows.head? = some p → (∀ q ∈ l, q.1 = p.1 → q = p) →
        (l.foldl (fun d q => Dict.set d q.1 q.2) d).rows.head? = some p by
    cases listed : refusals refuse recipients with
    | nil => rfl
    | cons p l =>
        refine general l _ p rfl fun q mem same => ?_
        have first := (mem_refusals.mp (listed ▸ List.mem_cons_self : p ∈ refusals _ _)).2
        have later := (mem_refusals.mp
          (listed ▸ List.mem_cons_of_mem p mem : q ∈ refusals _ _)).2
        rw [same, first] at later
        exact (Option.some.inj later).symm
  intro l
  induction l with
  | nil => exact fun d p head _ => head
  | cons q l ih =>
      intro d p head same
      refine ih _ p (head?_set head fun key => ?_) fun q' mem =>
        same q' (List.mem_cons_of_mem q mem)
      rw [same q List.mem_cons_self key]

/-- A recipient is accepted. -/
theorem refusing_of_accepted (accepts : ∃ r ∈ recipients, refuse.find? r = none)
    (response : String) :
    refusing refuse recipients response =
      .returned (Dict.ofList (refusals refuse recipients)) response := by
  obtain ⟨r, mem, free⟩ := accepts
  refine if_neg fun all => ?_
  have refused := List.all_eq_true.mp all r mem
  rw [free] at refused
  cases refused

theorem refusing_of_refused (all : ∀ r ∈ recipients, refuse.find? r ≠ none) (response : String) :
    refusing refuse recipients response = .recipientsRefused (refusals refuse recipients) :=
  if_pos (List.all_eq_true.mpr fun r mem => Option.isSome_iff_ne_none.mpr (all r mem))

end Results

/-! What the two report. -/

section Reports
variable {sink : SinkAdapter} (quiet : sink.failWith = none) (m : OutboundMessage)
  (host messageId : String) (size : Nat) (response : String)
include quiet

theorem refused_send : (sink.send m host messageId size).1.refused =
    Dict.ofList (refusals sink.failRecipients m.envelopeRecipients) := by
  unfold SinkAdapter.send
  dsimp only
  rw [quiet]

theorem success_send : (sink.send m host messageId size).1.success = true ↔
    ∃ r ∈ m.envelopeRecipients, sink.failRecipients.find? r = none := by
  unfold SinkAdapter.send
  dsimp only
  rw [quiet]
  dsimp only
  rw [accepted_refusals]
  simp [List.filter_eq_nil_iff]

theorem accepted_send (success : (sink.send m host messageId size).1.success = true) :
    (sink.send m host messageId size).1.acceptedRecipients ≠ [] := by
  unfold SinkAdapter.send at success ⊢
  dsimp only at success ⊢
  rw [quiet] at success ⊢
  simpa using success

/-- The sink's answer is always the same. -/
theorem response_send : (sink.send m host messageId size).1.response = some sinkAccepted := by
  unfold SinkAdapter.send
  dsimp only
  rw [quiet]

/-- The sink gives a message that it does not accept an answer of its own. -/
theorem answer_send (all : ∀ r ∈ m.envelopeRecipients, sink.failRecipients.find? r ≠ none) :
    (sink.send m host messageId size).1.code = some 550 ∧
      (sink.send m host messageId size).1.response = some sinkAccepted := by
  have refusesAll :
      (m.envelopeRecipients.filter fun r => (sink.failRecipients.find? r).isNone) = [] :=
    List.filter_eq_nil_iff.mpr fun r mem => by simpa using all r mem
  unfold SinkAdapter.send
  dsimp only
  rw [quiet]
  dsimp only
  rw [accepted_refusals, refusesAll]
  exact ⟨rfl, rfl⟩

end Reports

section Answers
variable (refuse : Dict String Reply) (recipients : List String) (response : String)

theorem refused_smtpSend : (smtpSend recipients (refusing refuse recipients response)).refused =
    Dict.ofList (refusals refuse recipients) := by
  unfold refusing
  split <;> rfl

theorem success_smtpSend :
    (smtpSend recipients (refusing refuse recipients response)).success = true ↔
      ∃ r ∈ recipients, refuse.find? r = none := by
  by_cases accepts : ∃ r ∈ recipients, refuse.find? r = none
  · rw [refusing_of_accepted accepts, smtpSend]
    dsimp only
    rw [accepted_refusals]
    simp [List.filter_eq_nil_iff]
  · have all : ∀ r ∈ recipients, refuse.find? r ≠ none := fun r mem free => accepts ⟨r, mem, free⟩
    rw [refusing_of_refused all]
    exact iff_of_false Bool.false_ne_true accepts

variable {refuse recipients response} in
theorem accepted_smtpSend
    (success : (smtpSend recipients (refusing refuse recipients response)).success = true) :
    (smtpSend recipients (refusing refuse recipients response)).acceptedRecipients ≠ [] := by
  have accepts := (success_smtpSend refuse recipients response).mp success
  rw [refusing_of_accepted accepts] at success ⊢
  simpa [smtpSend] using success

variable {refuse recipients} in
theorem answer_smtpSend (all : ∀ r ∈ recipients, refuse.find? r ≠ none) :
    (smtpSend recipients (refusing refuse recipients response)).code =
        some (firstRefusal refuse recipients).1 ∧
      (smtpSend recipients (refusing refuse recipients response)).response =
        some (firstRefusal refuse recipients).2 := by
  have head := head_refusals refuse recipients
  rw [refusing_of_refused all, smtpSend, firstRefusal]
  dsimp only
  cases rows : (Dict.ofList (refusals refuse recipients)).rows with
  | nil =>
      rw [rows] at head
      rw [List.head?_eq_none_iff.mp head.symm]
      exact ⟨rfl, rfl⟩
  | cons p rest =>
      rw [rows] at head
      obtain ⟨rest', listed⟩ := List.head?_eq_some_iff.mp head.symm
      rw [listed]
      exact ⟨rfl, rfl⟩

end Answers
/-! What the worker makes of it. -/

/-- The columns of a message that an attempt decides. -/
def Message.judgement (m : Message) : MessageStatus × Option FailureClass × Bool × Bool :=
  (m.status, m.failureClass, m.needsReview, m.completedAt.isSome)

/-- The judgement on a message whose attempt has failed. -/
def judgementOf (verdict : Verdict) (attempt : Nat) (m : Message) :
    MessageStatus × Option FailureClass × Bool × Bool :=
  if verdict.retryable = true ∧ attempt < maxAttempts then
    (.temporarilyFailed, some verdict.failureClass, m.needsReview || verdict.needsReview,
      m.completedAt.isSome)
  else (.permanentlyRejected, some verdict.failureClass,
    m.needsReview || verdict.needsReview || verdict.retryable, true)

theorem judgement_of_success {r : Recording} (success : r.result.success = true) (m : Message) :
    (r.row m).judgement = (.acceptedByProvider, none, m.needsReview, true) := by
  unfold Recording.row outcome
  dsimp only
  rw [if_pos success]
  rfl

theorem judgement_of_failure {r : Recording} (failure : r.result.success = false) (m : Message) :
    (r.row m).judgement = judgementOf r.verdict r.attempt m := by
  unfold Recording.row outcome judgementOf
  dsimp only
  rw [if_neg (by simp [failure]), applyFailure]
  dsimp only
  by_cases defers : r.Defers
  · have defers' : r.verdict.retryable = true ∧ r.attempt < maxAttempts := defers
    rw [if_pos defers']
    exact congrArg Message.judgement (congrArg Prod.fst (if_pos defers))
  · have final : ¬ (r.verdict.retryable = true ∧ r.attempt < maxAttempts) := defers
    rw [if_neg final]
    exact congrArg Message.judgement (congrArg Prod.fst (if_neg final))

/-! The answer of the sink is one that no rule of the classifier knows. -/

theorem classify_sinkAccepted : (classify (some 550) (some sinkAccepted)).failureClass = .unknown ∧
    (classify (some 550) (some sinkAccepted)).retryable = true ∧
    (classify (some 550) (some sinkAccepted)).needsReview = true := by
  decide +kernel

theorem rules_known : ∀ r ∈ rules, r.verdict.failureClass ≠ .unknown := by
  simp [rules]

/-- An answer with a code that no rule knows is retried exactly if it is flagged. -/
theorem flagged_of_unknown {code : Int} {response : Option String}
    (h : (classify (some code) response).failureClass = .unknown) :
    (classify (some code) response).needsReview = (classify (some code) response).retryable := by
  revert h
  unfold classify
  dsimp only
  cases found : rules.find? fun r => r.applies code (strip (orEmpty response)) with
  | some r => exact fun h => absurd h (rules_known r (List.mem_of_find?_eq_some found))
  | none =>
      dsimp only
      split_ifs <;> simp

/-- A refusal is judged as the sink's answer is. -/
def JudgedAsSink (refusal : Reply) (attempt : Nat) (m : Message) : Prop :=
  (classify (some refusal.1) (some refusal.2)).failureClass = .unknown ∧
    ((classify (some refusal.1) (some refusal.2)).retryable = true ∨
      (maxAttempts ≤ attempt ∧ m.needsReview = true))

instance (refusal : Reply) (attempt : Nat) (m : Message) :
    Decidable (JudgedAsSink refusal attempt m) := inferInstanceAs (Decidable (_ ∧ _))

theorem judgementOf_sink_iff (refusal : Reply) (attempt : Nat) (m : Message) :
    judgementOf (classify (some 550) (some sinkAccepted)) attempt m =
      judgementOf (classify (some refusal.1) (some refusal.2)) attempt m ↔
      JudgedAsSink refusal attempt m := by
  obtain ⟨unknown, retryable, flagged⟩ := classify_sinkAccepted
  have same := @flagged_of_unknown refusal.1 (some refusal.2)
  unfold judgementOf JudgedAsSink
  rw [unknown, retryable, flagged]
  generalize classify (some refusal.1) (some refusal.2) = v at same
  by_cases unknown : v.failureClass = .unknown
  · rw [unknown, same unknown]
    by_cases left : attempt < maxAttempts
    · cases v.retryable <;> simp [left, not_le.mpr left]
    · cases v.retryable <;> simp [left, not_lt.mp left]
  · refine iff_of_false (fun equal => unknown ?_) (fun h => unknown h.1)
    split_ifs at equal <;> simp_all

/-- The store after the transaction that records an answer, with nobody else at work. -/
def recorded (rt : Runtime) (id : Nat) (db : Database) (r : Recording) : Database :=
  (sessionScope (recordOutcome rt noRace id r) db).2

/-- The same becomes of the message, and of the addresses that are suppressed. -/
def SameOutcome (id : Nat) (db db' : Database) : Prop :=
  (db.messages.find? id).map Message.judgement = (db'.messages.find? id).map Message.judgement ∧
    ∀ address, db.suppressed address ↔ db'.suppressed address

/-- What becomes of the message and of the list: what the answer says, if nothing hinders the
recording, and otherwise nothing. -/
theorem recorded_ends (rt : Runtime) {db : Database} {id : Nat} {m : Message}
    (found : db.messages.find? id = some m) (r : Recording) :
    (Unhindered rt noRace db m r.result ∧
      ((recorded rt id db r).messages.find? id).map Message.judgement =
        some (r.row m).judgement ∧
      ∀ a, (recorded rt id db r).suppressed a ↔
        db.suppressed a ∨ Candidate rt (suppressionCandidates m r.result) a) ∨
    (¬ Unhindered rt noRace db m r.result ∧ recorded rt id db r = db) := by
  rcases recordOutcome_row rt noRace r found with ⟨free, row⟩ | ⟨hindered, -⟩
  · obtain ⟨after, run, -, list⟩ := recordOutcome_unhindered rt noRace r found free
    refine .inl ⟨free, ?_, ?_⟩
    · unfold recorded
      rw [row]
      rfl
    · unfold recorded
      rw [run]
      exact list
  · refine .inr ⟨hindered, ?_⟩
    have ends := recordOutcome_ends rt noRace r found
    unfold recorded
    generalize sessionScope (recordOutcome rt noRace id r) db = run at ends
    cases ends with
    | failed => rfl
    | recorded fits smooth => exact absurd ⟨fits, smooth⟩ hindered
    | lost _ _ _ contested =>
        obtain ⟨_, n, _, _, _, raced⟩ := contested
        exact absurd rfl raced

/-- A connection that is there hands the message over. -/
theorem send_of_reached {smtp : SmtpAdapter} {recipients : List String} {host : String}
    {c : Conversation} (reached : (smtp.ensureConnection host c).1 = none) :
    (smtp.send recipients host c).1 = smtpSend recipients c.outcome := by
  unfold SmtpAdapter.send
  split
  · rename_i same
    rw [same] at reached
    cases reached
  · rfl

section Agreement
variable (rt : Runtime) (refuse : Dict String Reply) (recipients : List String) (response : String)

/-- The text with which the server answers the message as a whole. -/
def wholeAnswer : String :=
  if ∃ r ∈ recipients, refuse.find? r = none then response else (firstRefusal refuse recipients).2

/-- The columns take the refusals, and each address they say is dead. -/
def RefusalsTaken (db : Database) : Prop :=
  let refused := (Dict.ofList (refusals refuse recipients)).rows
  (∀ p ∈ refused, rt.storesText p.1 = true ∧
    rt.storesText (clip 120 s!"{p.2.1} {p.2.2}") = true) ∧
  Smooth rt noRace db (refused.map fun (address, code, text) => (address, some code, some text))

variable {refuse recipients response}

/-- What the columns are to take of an answer that refuses by name. -/
theorem legible_refused {result : DeliveryResult}
    (refused : result.refused = Dict.ofList (refusals refuse recipients))
    (accepted : result.success = true → result.acceptedRecipients ≠ []) :
    result.legible rt = true ↔ rt.storesText (clip 500 (orEmpty result.response)) = true ∧
      ∀ p ∈ (Dict.ofList (refusals refuse recipients)).rows, rt.storesText p.1 = true ∧
        rt.storesText (clip 120 s!"{p.2.1} {p.2.2}") = true := by
  have told : (refusedDetail result).all (fun refusal =>
      rt.storesText refusal.1 && rt.storesText refusal.2) = true ↔
      ∀ p ∈ (Dict.ofList (refusals refuse recipients)).rows, rt.storesText p.1 = true ∧
        rt.storesText (clip 120 s!"{p.2.1} {p.2.2}") = true := by
    rw [refusedDetail, refused, List.all_map, List.all_eq_true]
    exact forall₂_congr fun p _ => Bool.and_eq_true _ _ ▸ Iff.rfl
  rw [DeliveryResult.legible, Bool.and_eq_true, Bool.or_eq_true, told]
  refine and_congr_right fun _ => or_iff_right_of_imp fun whole => ?_
  rw [Bool.and_eq_true, Bool.not_eq_true', DeliveryResult.isPartial, Bool.and_eq_false_iff] at whole
  have somebody := accepted whole.1
  have rows : (Dict.ofList (refusals refuse recipients)).rows = [] := by
    rw [← refused]
    simpa [somebody] using whole.2
  simp [rows]

theorem legible_text_smtpSend :
    rt.storesText (clip 500 (orEmpty (smtpSend recipients
        (refusing refuse recipients response)).response)) = true ↔
      rt.storesText (clip 500 (wholeAnswer refuse recipients response)) = true := by
  by_cases accepts : ∃ r ∈ recipients, refuse.find? r = none
  · rw [refusing_of_accepted accepts, smtpSend, wholeAnswer, if_pos accepts]
    dsimp only
    by_cases empty : response = ""
    · have nothing : rt.storesText (clip 500 "") = true := rt.storesText_of_ascii (by decide)
      have everybody : rt.storesText (clip 500 "all recipients refused") = true :=
        rt.storesText_of_ascii (by decide)
      subst empty
      refine iff_of_true ?_ nothing
      rw [if_neg (not_not.mpr rfl)]
      split
      · exact nothing
      · exact everybody
    · rw [if_pos empty]
      rfl
  · have all : ∀ r ∈ recipients, refuse.find? r ≠ none := fun r mem free => accepts ⟨r, mem, free⟩
    rw [(answer_smtpSend response all).2, wholeAnswer, if_neg accepts]
    rfl

section Refused
variable {m : Message} {result : DeliveryResult}
  (refused : result.refused = Dict.ofList (refusals refuse m.envelopeRecipients))
  (success : result.success = true ↔ ∃ r ∈ m.envelopeRecipients, refuse.find? r = none)
include refused success

/-- The candidates are those that are refused by name. -/
theorem candidates_refused : suppressionCandidates m result =
    (Dict.ofList (refusals refuse m.envelopeRecipients)).rows.map fun (address, code, text) =>
      (address, some code, some text) := by
  rw [← refused, suppressionCandidates]
  dsimp only
  split
  · rename_i unnamed
    have rows : result.refused.rows = [] := by simpa using unnamed.1
    have all (a : String) (mem : a ∈ m.envelopeRecipients) : refuse.find? a ≠ none := fun free =>
      Bool.false_ne_true (unnamed.2.symm.trans (success.mpr ⟨a, mem, free⟩))
    have nobody := nobody_of_unnamed all (refused ▸ rows)
    simp only [Message.envelopeRecipients, List.append_eq_nil_iff] at nobody
    rw [rows, nobody.1.1, nobody.1.2]
    rfl
  · rfl

/-- Nothing hinders the recording of the answer if the columns take its text and the
refusals. -/
theorem unhindered_refused {db : Database}
    (accepted : result.success = true → result.acceptedRecipients ≠ []) :
    Unhindered rt noRace db m result ↔
      rt.storesText (clip 500 (orEmpty result.response)) = true ∧
        RefusalsTaken rt refuse m.envelopeRecipients db := by
  rw [Unhindered, legible_refused rt refused accepted, candidates_refused refused success,
    and_assoc]
  exact Iff.rfl

end Refused

end Agreement

theorem status_of_row (r : Recording) (m : Message) : (r.row m).status ≠ .sending := by
  intro sending
  cases (r.row_spec m).1 with
  | accepted _ status => cases sending.symm.trans status
  | deferred _ _ status => cases sending.symm.trans status
  | rejected _ _ status => cases sending.symm.trans status

/-- Over the same row the sink's answer and a server's leave the same judgement if both accept
somebody, or if the server's refusal is judged as the sink's is. -/
theorem judgement_row_iff {r r' : Recording} {m : Message} {refusal : Reply} {accepts : Prop}
    (again : r'.attempt = r.attempt) (success : r.result.success = true ↔ accepts)
    (success' : r'.result.success = true ↔ accepts)
    (answer : ¬ accepts → r.result.code = some 550 ∧ r.result.response = some sinkAccepted)
    (answer' : ¬ accepts →
      r'.result.code = some refusal.1 ∧ r'.result.response = some refusal.2) :
    (r.row m).judgement = (r'.row m).judgement ↔
      accepts ∨ JudgedAsSink refusal r.attempt m := by
  by_cases accepted : accepts
  · rw [judgement_of_success (success.mpr accepted), judgement_of_success (success'.mpr accepted)]
    exact iff_of_true rfl (.inl accepted)
  · obtain ⟨code, text⟩ := answer accepted
    obtain ⟨code', text'⟩ := answer' accepted
    rw [judgement_of_failure (Bool.eq_false_iff.mpr (mt success.mp accepted)),
      judgement_of_failure (Bool.eq_false_iff.mpr (mt success'.mp accepted)),
      or_iff_right accepted, ← judgementOf_sink_iff, Recording.verdict, Recording.verdict,
      code, text, code', text', again]

/-- A worker records the same outcome whether it asks the sink, or a server that refuses the
same recipients, if and only if some recipient is accepted or the first refusal is judged as
the sink's own answer is, or if the columns do not take the refusals. Where they do not take
the server's text, only then. -/
theorem sink_agrees_iff (rt : Runtime) (sink : SinkAdapter) (quiet : sink.failWith = none)
    (smtp : SmtpAdapter) (mailbox : Mailbox) (host messageId : String) (size : Nat)
    (response : String) (c : Conversation) {db : Database} {id : Nat} {m : Message}
    (found : db.messages.find? id = some m) (reached : (smtp.ensureConnection host c).1 = none)
    (answers : c.outcome =
      refusing sink.failRecipients (outboundOf m mailbox).envelopeRecipients response)
    (attempt latencyMs : Nat) (jitter : Jitter) (now later : Time) :
    let same := SameOutcome id
      (recorded rt id db ⟨(sink.send (outboundOf m mailbox) host messageId size).1, attempt,
        latencyMs, jitter, now, later⟩)
      (recorded rt id db ⟨(smtp.send (outboundOf m mailbox).envelopeRecipients host c).1, attempt,
        latencyMs, jitter, now, later⟩)
    let taken := RefusalsTaken rt sink.failRecipients m.envelopeRecipients db
    let text := clip 500 (wholeAnswer sink.failRecipients m.envelopeRecipients response)
    (rt.storesText text = true → (same ↔ (taken →
      (∃ r ∈ m.envelopeRecipients, sink.failRecipients.find? r = none) ∨
        JudgedAsSink (firstRefusal sink.failRecipients m.envelopeRecipients) attempt m))) ∧
    (rt.storesText text = false → m.status = .sending → (same ↔ ¬ taken)) := by
  intro same taken text
  let r : Recording := ⟨(sink.send (outboundOf m mailbox) host messageId size).1, attempt,
    latencyMs, jitter, now, later⟩
  let r' : Recording := ⟨(smtp.send (outboundOf m mailbox).envelopeRecipients host c).1, attempt,
    latencyMs, jitter, now, later⟩
  have result' : r'.result = smtpSend m.envelopeRecipients
      (refusing sink.failRecipients m.envelopeRecipients response) :=
    (send_of_reached reached).trans (congrArg _ answers)
  have success := success_send quiet (outboundOf m mailbox) host messageId size
  have success' := success_smtpSend sink.failRecipients m.envelopeRecipients response
  have refused : r.result.refused =
      Dict.ofList (refusals sink.failRecipients m.envelopeRecipients) := refused_send quiet ..
  have refused' := refused_smtpSend sink.failRecipients m.envelopeRecipients response
  rw [← result'] at success' refused'
  have free : Unhindered rt noRace db m r.result ↔ taken := by
    refine (unhindered_refused rt refused success (accepted_send quiet _ _ _ _)).trans
      (and_iff_right ?_)
    rw [show r.result.response = some sinkAccepted from response_send quiet ..]
    exact rt.storesText_of_ascii (by decide)
  have free' : Unhindered rt noRace db m r'.result ↔ rt.storesText text = true ∧ taken := by
    refine (unhindered_refused rt refused' success' ?_).trans (and_congr_left fun _ => ?_)
    · rw [result']
      exact accepted_smtpSend
    · rw [result']
      exact legible_text_smtpSend rt
  have candidates : suppressionCandidates m r.result = suppressionCandidates m r'.result :=
    (candidates_refused refused success).trans (candidates_refused refused' success').symm
  have unchanged (hindered : ¬ taken) : same := by
    have kept := (recorded_ends rt found r).resolve_left fun h => hindered (free.mp h.1)
    have kept' := (recorded_ends rt found r').resolve_left fun h => hindered (free'.mp h.1).2
    show SameOutcome id (recorded rt id db r) (recorded rt id db r')
    rw [kept.2, kept'.2]
    exact ⟨rfl, fun _ => Iff.rfl⟩
  refine ⟨fun legible => ?_, fun illegible sending => ?_⟩
  · by_cases told : taken
    swap
    · exact iff_of_true (unchanged told) fun h => absurd h told
    obtain ⟨-, row, list⟩ := (recorded_ends rt found r).resolve_right fun h => h.1 (free.mpr told)
    obtain ⟨-, row', list'⟩ := (recorded_ends rt found r').resolve_right fun h =>
      h.1 (free'.mpr ⟨legible, told⟩)
    have lists : ∀ a, (recorded rt id db r).suppressed a ↔ (recorded rt id db r').suppressed a :=
      fun a => by rw [list, list', candidates]
    rw [imp_iff_right told]
    show SameOutcome id (recorded rt id db r) (recorded rt id db r') ↔ _
    rw [SameOutcome, and_iff_left lists, row, row', Option.some_inj]
    have all (nobody : ¬ ∃ a ∈ m.envelopeRecipients, sink.failRecipients.find? a = none)
        (a : String) (mem : a ∈ m.envelopeRecipients) : sink.failRecipients.find? a ≠ none :=
      fun free => nobody ⟨a, mem, free⟩
    refine judgement_row_iff rfl success success'
      (fun nobody => answer_send quiet _ host messageId size (all nobody)) fun nobody => ?_
    rw [result']
    exact answer_smtpSend response (all nobody)
  · refine ⟨fun alike told => ?_, unchanged⟩
    obtain ⟨-, row, -⟩ := (recorded_ends rt found r).resolve_right fun h => h.1 (free.mpr told)
    have kept' := (recorded_ends rt found r').resolve_left fun h => by
      cases illegible.symm.trans (free'.mp h.1).1
    have rows : ((recorded rt id db r).messages.find? id).map Message.judgement =
        ((recorded rt id db r').messages.find? id).map Message.judgement := alike.1
    rw [row, kept'.2, found] at rows
    have status : (r.row m).status = m.status := congrArg Prod.fst (Option.some.inj rows)
    exact status_of_row r m (status.trans sending)

/-! The letter to Ann, whom the server refuses. -/
namespace Sample

def refusesAnn (reply : Reply) : Dict String Reply := Dict.ofList [("ann@example.net", reply)]

def sinkRefusing (reply : Reply) : SinkAdapter := { failRecipients := refusesAnn reply }

def toAnn : OutboundMessage := outboundOf inFlight mailbox

def serverRefusing (reply : Reply) : Conversation where
  connected := true
  connecting := .greeted "" none
  outcome := refusing (refusesAnn reply) toAnn.envelopeRecipients "250 OK"

/-- What is recorded in test mode. -/
def sinkRecording (reply : Reply) : Recording :=
  ⟨((sinkRefusing reply).send toAnn "mx.example" "<email_A@shop.example>" 400).1, 1, 40, evenJitter,
    seconds 1, seconds 1⟩

def smtpRecording (reply : Reply) : Recording :=
  ⟨(smtpAdapter.send toAnn.envelopeRecipients "mx.example" (serverRefusing reply)).1, 1, 40,
    evenJitter, seconds 1, seconds 1⟩

def unknownAnn : Reply := (550, "No such recipient here")

def strangeReply : Reply := (521, "Server does not accept mail")

end Sample

/-- A dead address is a rejection in earnest, and put off for review in test mode. -/
theorem rejection_is_put_off_by_sink : ¬ SameOutcome 1
    (recorded Sample.runtime 1 Sample.storeInFlight (Sample.sinkRecording Sample.unknownAnn))
    (recorded Sample.runtime 1 Sample.storeInFlight (Sample.smtpRecording Sample.unknownAnn)) := by
  rintro ⟨same, _⟩
  have putOff : ((recorded Sample.runtime 1 Sample.storeInFlight (Sample.sinkRecording
      Sample.unknownAnn)).messages.find? 1).map Message.judgement =
        some (.temporarilyFailed, some .unknown, true, false) := by decide +kernel
  have rejected : ((recorded Sample.runtime 1 Sample.storeInFlight (Sample.smtpRecording
      Sample.unknownAnn)).messages.find? 1).map Message.judgement =
        some (.permanentlyRejected, some .recipientRejected, false, true) := by decide +kernel
  rw [putOff, rejected] at same
  cases same

/-- An answer that no rule knows is recorded alike. -/
theorem strange_refusal_is_put_off_by_both : SameOutcome 1
    (recorded Sample.runtime 1 Sample.storeInFlight (Sample.sinkRecording Sample.strangeReply))
    (recorded Sample.runtime 1 Sample.storeInFlight (Sample.smtpRecording Sample.strangeReply)) :=
  ((sink_agrees_iff Sample.runtime (Sample.sinkRefusing Sample.strangeReply) rfl Sample.smtpAdapter
    Sample.mailbox "mx.example" "<email_A@shop.example>" 400 "250 OK"
    (Sample.serverRefusing Sample.strangeReply)
    (by decide : Sample.storeInFlight.messages.find? 1 = some Sample.inFlight) rfl rfl 1 40
    Sample.evenJitter (seconds 1) (seconds 1)).1 (by decide)).mpr
      fun _ => .inr (by decide +kernel)

end Emaild
