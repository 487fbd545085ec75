import Emaild.Classify
import Emaild.Recording

/-!
What the rule table decides, by the wordings a text contains: which replies are
deferrals, which are final, and which of them are held against an address. The
table is read in order, so a wording counts only where no earlier one does.
-/
namespace Emaild
open Relational Text Text.Regex

/-- A rule that holds for every code finds the wording of a class. -/
def wording (c : FailureClass) (text : String) : Bool :=
  rules.any fun r => r.code.isNone && r.verdict.failureClass == c && r.pattern.search text

/-- A rule for this code alone finds the wording of a class. -/
def observed (code : Int) (c : FailureClass) (text : String) : Bool :=
  rules.any fun r => r.code == some code && r.verdict.failureClass == c && r.pattern.search text

/-- A rule that holds for the code and is final finds its wording. -/
def permanentWording (code : Int) (text : String) : Bool :=
  rules.any fun r => !r.verdict.retryable && r.applies code text

/-- The text that `classify` reads. -/
def wordsOf (response : Option String) : String := strip (orEmpty response)

/-- The class of a reply whose text says nothing. -/
def codeClass (code : Int) : FailureClass :=
  if 400 ≤ code ∧ code < 500 then .providerDeferral else .unknown

theorem elim_find?_cons {α β : Type} (p : α → Bool) (a : α) (as : List α) (d : β) (f : α → β) :
    ((a :: as).find? p).elim d f = if p a then f a else (as.find? p).elim d f := by
  rw [List.find?_cons]
  cases p a <;> rfl

section Class
variable (code : Int) (response : Option String)

theorem classify_eq_elim :
    (classify (some code) response).failureClass =
      (rules.find? fun r => r.applies code (wordsOf response)).elim (codeClass code)
        fun r => r.verdict.failureClass := by
  unfold classify
  dsimp only
  rw [show strip (orEmpty response) = wordsOf response from rfl]
  cases rules.find? fun r => r.applies code (wordsOf response) with
  | some r => rfl
  | none =>
      dsimp only [codeClass, Option.elim]
      split_ifs <;> first | rfl | omega

/-- The class of a reply, by the first wording that its text contains. -/
theorem classify_class :
    (classify (some code) response).failureClass =
      let text := wordsOf response
      if observed code .authFailure text then .authFailure
      else if observed code .recipientRejected text then .recipientRejected
      else if observed code .senderMismatch text then .senderMismatch
      else if observed code .senderUnauthorized text then .senderUnauthorized
      else if wording .rateLimited text then .rateLimited
      else if wording .recipientRejected text then .recipientRejected
      else if wording .policyRejected text then .policyRejected
      else if wording .messageInvalid text then .messageInvalid
      else if wording .providerDeferral text then .providerDeferral
      else codeClass code := by
  rw [classify_eq_elim]
  simp [rules, elim_find?_cons, Rule.applies, observed, wording, -List.find?_singleton]

variable {code response}

/-- A reply with an error code is retried where its class is not a final one. -/
theorem classify_retryable (failure : 300 ≤ code) :
    (classify (some code) response).retryable = true ↔
      (classify (some code) response).failureClass ∈
        [FailureClass.rateLimited, .providerDeferral, .unknown] := by
  have table : ∀ r ∈ rules, r.verdict.retryable = true ↔ r.verdict.failureClass ∈
      [FailureClass.rateLimited, .providerDeferral, .unknown] := by decide
  unfold classify
  dsimp only
  split
  · rename_i r found
    exact table r (List.mem_of_find?_eq_some found)
  · split_ifs <;> first | omega | simp

/-- The rules with a code are about permanent failures. -/
theorem observed_of_lt (deferral : code < 500) (c : FailureClass) (text : String) :
    observed code c text = false := by
  have high : ∀ r ∈ rules, ∀ given ∈ r.code, 500 ≤ given := by decide
  rw [observed, List.any_eq_false]
  intro r mem found
  simp only [Bool.and_eq_true, beq_iff_eq] at found
  have := high r mem code found.1.1
  omega

/-- For a temporary failure the final wordings are those of three general rules. -/
theorem permanentWording_of_lt (deferral : code < 500) (text : String) :
    permanentWording code text = true ↔ wording .recipientRejected text = true ∨
      wording .policyRejected text = true ∨ wording .messageInvalid text = true := by
  have auth : ¬ 535 = code := by omega
  have recipient : ¬ 550 = code := by omega
  simp [permanentWording, wording, rules, Rule.applies, auth, recipient]

/-- A reply with a temporary code is taken for final where its text has a final
wording and none of the rate limit's, which come first in the table. -/
theorem deferral_retryable_iff (temporary : 400 ≤ code ∧ code < 500)
    (response : Option String) :
    (classify (some code) response).retryable = true ↔
      (permanentWording code (wordsOf response) = true →
        wording .rateLimited (wordsOf response) = true) := by
  have uncoded := observed_of_lt temporary.2
  rw [classify_retryable (by omega), classify_class, permanentWording_of_lt temporary.2]
  simp only [uncoded, codeClass, if_pos temporary]
  cases wording .rateLimited (wordsOf response) <;>
  cases wording .recipientRejected (wordsOf response) <;>
  cases wording .policyRejected (wordsOf response) <;>
  cases wording .messageInvalid (wordsOf response) <;>
  cases wording .providerDeferral (wordsOf response) <;> simp

end Class

/-- The reply a server gives while a mailbox is busy. -/
def mailboxBusy : Option String := some "Requested mail action not taken: mailbox unavailable"

/-- It is taken for final. -/
theorem mailboxBusy_not_retried : (400 ≤ (450 : Int) ∧ (450 : Int) < 500) ∧
    (classify (some 450) mailboxBusy).retryable = false := by
  decide +kernel

/-- A deferral without such words is retried. -/
theorem localProblem_retried :
    (classify (some 451) (some "Temporary local problem")).retryable = true :=
  (deferral_retryable_iff (by decide) (some "Temporary local problem")).mpr
    fun final => absurd final (by decide +kernel)

/-! What is not known to be final is tried again. -/

section Unfamiliar
variable {code : Int} {response : Option String}

/-- Only a final wording makes a reply with a permanent code final. -/
theorem classify_retryable_of_unfamiliar (permanent : 500 ≤ code)
    (unfamiliar : permanentWording code (wordsOf response) = false) :
    (classify (some code) response).retryable = true := by
  unfold classify
  dsimp only
  split
  · rename_i r found
    by_contra final
    have applies := List.find?_some found
    have known := List.any_eq_false.mp unfamiliar r (List.mem_of_find?_eq_some found)
    rw [Bool.not_eq_true] at final
    simp only [final, Bool.not_false, Bool.true_and] at known
    exact known applies
  · split_ifs <;> first | omega | rfl

/-- A reply with a permanent code that is tried again is flagged, unless a rule says why
it is tried again. -/
theorem classify_needsReview_of_unfamiliar (permanent : 500 ≤ code)
    (unfamiliar : permanentWording code (wordsOf response) = false)
    (limited : wording .rateLimited (wordsOf response) = false)
    (deferred : wording .providerDeferral (wordsOf response) = false) :
    (classify (some code) response).needsReview = true := by
  have table : ∀ r ∈ rules, r.verdict.retryable = false ∨ r.code = none ∧
      (r.verdict.failureClass = .rateLimited ∨ r.verdict.failureClass = .providerDeferral) := by
    decide
  unfold classify
  dsimp only
  split
  · rename_i r found
    have mem := List.mem_of_find?_eq_some found
    have applies : r.applies code (strip (orEmpty response)) = true := by
      simpa using List.find?_some found
    rcases table r mem with final | ⟨general, known⟩
    · have := List.any_eq_false.mp unfamiliar r mem
      simp [final, wordsOf, applies] at this
    · have finds : r.pattern.search (wordsOf response) = true := by
        simpa [Rule.applies, general, wordsOf] using applies
      rcases known with known | known
      · have := List.any_eq_false.mp limited r mem
        simp [general, known, finds] at this
      · have := List.any_eq_false.mp deferred r mem
        simp [general, known, finds] at this
  · split_ifs <;> first | omega | rfl

end Unfamiliar

theorem backoffDelay_pos (attempt : Nat) (jitter : Jitter) : 0 < backoffDelay attempt jitter := by
  have base : ∀ n, 0 < backoff.getD n 30 := fun n => by
    rw [List.getD_eq_getElem?_getD]
    cases entry : backoff[n]? with
    | none => decide
    | some b =>
        exact (by decide : ∀ b ∈ backoff, 0 < b) b (List.mem_of_getElem? entry)
  exact Int.mul_pos (base _) (by have := jitter.atLeast; omega)

/-- The message goes back into the queue, for later. -/
structure PutOff (r : Recording) (m m' : Message) : Prop where
  status : m'.status = .temporarilyFailed
  again : ∃ t ∈ m'.nextAttemptAt, r.later < t
  unclaimed : m'.claimedBy = none ∧ m'.claimedAt = none
  unfinished : m.completedAt = none → m'.completedAt = none

section Outcome
variable (r : Recording) (m : Message)

theorem row_of_defers (failed : r.result.success = false) (defers : r.Defers) :
    PutOff r m (r.row m) ∧ (r.row m).needsReview = (m.needsReview || r.verdict.needsReview) := by
  have deferral : (classify r.result.code r.result.response).retryable = true ∧
      r.attempt < maxAttempts := defers
  have later : r.later < r.later + backoffDelay r.attempt r.jitter :=
    Int.lt_add_of_pos_right _ (backoffDelay_pos r.attempt r.jitter)
  simp only [Recording.row, outcome, failed, Bool.false_eq_true, if_false, applyFailure,
    if_pos deferral]
  exact ⟨⟨rfl, ⟨_, rfl, later⟩, ⟨rfl, rfl⟩, fun unset => unset⟩, rfl⟩

end Outcome

/-- The failure has no code, or a permanent one and no final wording for it. -/
def Unfamiliar (result : DeliveryResult) : Prop :=
  ∀ code, result.code = some code →
    500 ≤ code ∧ permanentWording code (wordsOf result.response) = false

/-- A failure that leaves attempts puts the message off unless its text has a final wording for
its code. One that says nothing else either is flagged. A failure without a code always puts
it off. -/
structure Spared (r : Recording) (m m' : Message) : Prop where
  putOff : ∀ code, r.result.code = some code → 500 ≤ code →
    permanentWording code (wordsOf r.result.response) = false → PutOff r m m' ∧
      (wording .rateLimited (wordsOf r.result.response) = false →
        wording .providerDeferral (wordsOf r.result.response) = false → m'.needsReview = true)
  rejected : ∀ code, r.result.code = some code → 500 ≤ code →
    m'.status = .permanentlyRejected → permanentWording code (wordsOf r.result.response) = true
  uncoded : r.result.code = none → PutOff r m m'

section Spared
variable (rt : Runtime) (race : Race) (r : Recording) (m : Message)

/-- The row of the outcome is spared. -/
theorem spared_row (failed : r.result.success = false) (left : r.attempt < maxAttempts) :
    Spared r m (r.row m) := by
  have puts {code : Int} (coded : r.result.code = some code) (permanent : 500 ≤ code)
      (unfamiliar : permanentWording code (wordsOf r.result.response) = false) :=
    row_of_defers r m failed ⟨by
      rw [Recording.verdict, coded]
      exact classify_retryable_of_unfamiliar permanent unfamiliar, left⟩
  constructor
  case putOff =>
    intro code coded permanent unfamiliar
    refine ⟨(puts coded permanent unfamiliar).1, fun limited deferred => ?_⟩
    rw [(puts coded permanent unfamiliar).2, Recording.verdict, coded,
      classify_needsReview_of_unfamiliar permanent unfamiliar limited deferred, Bool.or_true]
  case rejected =>
    intro code coded permanent rejected
    by_contra unfamiliar
    have := (puts coded permanent (by simpa using unfamiliar)).1.status
    rw [rejected] at this
    cases this
  case uncoded =>
    intro uncoded
    exact (row_of_defers r m failed ⟨by rw [Recording.verdict, uncoded]; rfl, left⟩).1

/-- A message that is left in flight is spared only what the failure does not ask for. -/
theorem spared_sending (sending : m.status = .sending) : Spared r m m ↔ ¬ Unfamiliar r.result := by
  have kept (put : PutOff r m m) : False := by
    cases sending.symm.trans put.status
  constructor
  · intro spared unfamiliar
    cases coded : r.result.code with
    | none => exact kept (spared.uncoded coded)
    | some code =>
        obtain ⟨permanent, words⟩ := unfamiliar code coded
        exact kept (spared.putOff code coded permanent words).1
  · intro familiar
    constructor
    case putOff =>
      intro code coded permanent words
      refine absurd (fun code' coded' => ?_) familiar
      obtain rfl := Option.some.inj (coded.symm.trans coded')
      exact ⟨permanent, words⟩
    case rejected =>
      intro code coded permanent rejected
      cases sending.symm.trans rejected
    case uncoded =>
      intro uncoded
      refine absurd (fun code coded => ?_) familiar
      cases uncoded.symm.trans coded

/-- After a failure that leaves attempts the message is spared exactly where nothing hinders
the recording, or where it was before; and a message in flight was only if the failure has a
familiar text, or a code that is not permanent. -/
theorem unfamiliar_failure_put_off_iff {db : Database} {id : Nat}
    (found : db.messages.find? id = some m) (failed : r.result.success = false)
    (left : r.attempt < maxAttempts) :
    ((∃ m', (sessionScope (recordOutcome rt race id r) db).2.messages.find? id = some m' ∧
        Spared r m m') ↔
      Unhindered rt race db m r.result ∨ Spared r m m) ∧
    (m.status = .sending → (Spared r m m ↔ ¬ Unfamiliar r.result)) := by
  refine ⟨?_, spared_sending r m⟩
  rcases recordOutcome_row rt race r found with ⟨free, there⟩ | ⟨hindered, there⟩
  · exact iff_of_true ⟨_, there, spared_row r m failed left⟩ (.inl free)
  · rw [there]
    constructor
    · rintro ⟨m', same, spared⟩
      obtain rfl := Option.some.inj same
      exact .inr spared
    · intro before
      exact ⟨m, rfl, before.resolve_left hindered⟩

end Spared

namespace Sample

/-- An answer with a code and words that nobody has seen. -/
def strangeFailure : Recording :=
  { bounce with
    result := smtpSend ["ann@example.net"] (.responseException 521 "Server does not accept mail") }

/-- The same answer with a byte in it that is no text. -/
def garbledFailure : Recording :=
  { bounce with
    result := smtpSend ["ann@example.net"]
      (.responseException 521 "Server does not accept mail\x00") }

end Sample

/-- It leaves the message in flight. -/
theorem garbledFailure_not_put_off :
    Sample.storeInFlight.messages.find? 1 = some Sample.inFlight ∧
    Sample.garbledFailure.result.success = false ∧
    Sample.garbledFailure.attempt < maxAttempts ∧
    Sample.garbledFailure.result.code = some 521 ∧
    permanentWording 521 (wordsOf Sample.garbledFailure.result.response) = false ∧
    ¬ ∃ m', (sessionScope (recordOutcome Sample.runtime noRace 1 Sample.garbledFailure)
        Sample.storeInFlight).2.messages.find? 1 = some m' ∧
      Spared Sample.garbledFailure Sample.inFlight m' := by
  have unfamiliar :
      permanentWording 521 (wordsOf Sample.garbledFailure.result.response) = false := by
    decide +kernel
  refine ⟨by decide, rfl, by decide, rfl, unfamiliar, ?_⟩
  rintro ⟨m', found, spared⟩
  have unchanged : (sessionScope (recordOutcome Sample.runtime noRace 1 Sample.garbledFailure)
      Sample.storeInFlight).2.messages.find? 1 = some Sample.inFlight := by decide +kernel
  obtain rfl := Option.some.inj (unchanged.symm.trans found)
  cases (spared.putOff 521 rfl (by decide) unfamiliar).1.status

/-- The legible one puts it off, and flags it. -/
theorem strangeFailure_put_off : ∃ m',
    (sessionScope (recordOutcome Sample.runtime noRace 1 Sample.strangeFailure)
      Sample.storeInFlight).2.messages.find? 1 = some m' ∧
    PutOff Sample.strangeFailure Sample.inFlight m' ∧ m'.needsReview = true := by
  have quiet : suppressionCandidates Sample.inFlight Sample.strangeFailure.result =
      [("ann@example.net", some 521, some "Server does not accept mail")] := by decide
  have alive : judgedDead (some 521) (some "Server does not accept mail") = false := by
    decide +kernel
  have smooth : Smooth Sample.runtime noRace Sample.storeInFlight
      (suppressionCandidates Sample.inFlight Sample.strangeFailure.result) := by
    rw [quiet, ← List.nil_append [_], smooth_concat]
    refine ⟨smooth_nil _ _, fun contested => ?_, fun barred => ?_⟩
    · cases alive.symm.trans contested.1
    · cases alive.symm.trans barred.1
  obtain ⟨settled, _⟩ := unfamiliar_failure_put_off_iff Sample.runtime noRace
    Sample.strangeFailure Sample.inFlight
    (by decide : Sample.storeInFlight.messages.find? 1 = _) rfl (by decide)
  obtain ⟨m', found, spared⟩ := settled.mpr (.inl ⟨by decide, smooth⟩)
  obtain ⟨put, flagged⟩ := spared.putOff 521 rfl (by decide) (by decide +kernel)
  exact ⟨m', found, put, flagged (by decide +kernel) (by decide +kernel)⟩

/-! Which replies are held against an address. -/

section Dead
variable {text : String}

theorem wording_recipientRejected : wording .recipientRejected text = true ↔
    ∃ w ∈ ["user unknown", "no such user", "mailbox unavailable", "does not exist",
      "invalid recipient"], (word w).search text = true := by
  rw [← search_words]
  simp [wording, rules]

theorem observed_recipientRejected {code : Int} : observed code .recipientRejected text = true ↔
    550 = code ∧ (word "no such recipient here").search text = true := by
  simp [observed, rules]

theorem observed_authFailure {code : Int} : observed code .authFailure text = true ↔
    535 = code ∧ (word "incorrect authentication data").search text = true := by
  simp [observed, rules]

/-- Whatever is worded like the rejection of a recipient says that the address is dead. -/
theorem addressIsDead_of_word {w : String} (mem : w ∈ ["no such recipient here", "user unknown",
    "no such user", "mailbox unavailable", "does not exist", "invalid recipient"])
    (found : (word w).search text = true) : addressIsDead.search text = true := by
  refine search_mono (fun xs fits => fits_oneOf.mpr ?_) found
  simp only [List.mem_cons, List.not_mem_nil, or_false] at mem
  rcases mem with rfl | rfl | rfl | rfl | rfl | rfl
  · have split : "no such recipient here" = "no such recipient" ++ " here" := by decide
    rw [split, fits_word_append, fits_word_seq] at fits
    exact ⟨_, .head _, fits_words.mpr ⟨_, by simp, fits.1⟩⟩
  · exact ⟨_, .head _, fits_words.mpr ⟨_, by simp, fits⟩⟩
  · exact ⟨_, .head _, fits_words.mpr ⟨_, by simp, fits⟩⟩
  · have split : "mailbox unavailable" = "mailbox " ++ "unavailable" := by decide
    rw [split, fits_word_append, fits_word_seq] at fits
    exact ⟨_, .tail _ (.head _),
      fits_word_seq.mpr ⟨fits.1, fits_words.mpr ⟨"unavailable", by simp, fits.2⟩⟩⟩
  · exact ⟨_, .tail _ (.tail _ (.tail _ (.tail _ (.head _)))), fits_words.mpr ⟨_, by simp, fits⟩⟩
  · exact ⟨_, .tail _ (.tail _ (.tail _ (.tail _ (.head _)))), fits_words.mpr ⟨_, by simp, fits⟩⟩

end Dead

/-- The text says that the recipient does not exist, and no earlier rule of the table
finds anything in it. -/
def nonexistenceFirst (code : Int) (text : String) : Bool :=
  observed code .recipientRejected text || (wording .recipientRejected text &&
    !observed code .authFailure text && !observed code .senderMismatch text &&
    !observed code .senderUnauthorized text && !wording .rateLimited text)

theorem classify_recipientRejected (code : Int) (response : Option String) :
    (classify (some code) response).failureClass = .recipientRejected ↔
      nonexistenceFirst code (wordsOf response) = true := by
  rw [classify_class, nonexistenceFirst]
  by_cases recipient : observed code .recipientRejected (wordsOf response) = true
  · have auth : observed code .authFailure (wordsOf response) = false := by
      rw [Bool.eq_false_iff]
      intro auth
      cases (observed_recipientRejected.mp recipient).1.trans (observed_authFailure.mp auth).1.symm
    simp [recipient, auth]
  · dsimp only
    split_ifs <;> simp_all [codeClass]
    split_ifs <;> simp

/-- What is found in the text that `classify` reads is in the whole text. -/
theorem search_word_of_wordsOf {w : String} {response : Option String}
    (found : (word w).search (wordsOf response) = true) :
    (word w).search (orEmpty response) = true :=
  search_word.mpr ((search_word.mp found).trans ((strip_within (orEmpty response)).map foldCase))

theorem addressIsDead_of_nonexistenceFirst {code : Int} {response : Option String}
    (h : nonexistenceFirst code (wordsOf response) = true) :
    addressIsDead.search (orEmpty response) = true := by
  simp only [nonexistenceFirst, Bool.or_eq_true, Bool.and_eq_true] at h
  rcases h with observed | ⟨⟨⟨⟨general, _⟩, _⟩, _⟩, _⟩
  · exact addressIsDead_of_word (.head _)
      (search_word_of_wordsOf (observed_recipientRejected.mp observed).2)
  · obtain ⟨w, mem, found⟩ := wording_recipientRejected.mp general
    exact addressIsDead_of_word (.tail _ mem) (search_word_of_wordsOf found)

/-- An answer counts against an address where it is a permanent failure and its text
names a recipient that does not exist before it says anything else. -/
theorem judgedDead_iff (code : Option Int) (response : Option String) :
    judgedDead code response = true ↔ ∃ c ∈ code, (500 ≤ c ∧ c < 600) ∧
      nonexistenceFirst c (wordsOf response) = true := by
  cases code with
  | none => simp [judgedDead, shouldSuppress]
  | some code =>
      have named := classify_recipientRejected code response
      simp only [judgedDead, shouldSuppress, Bool.and_eq_true, beq_iff_eq, decide_eq_true_eq, named,
        Option.mem_some_iff, exists_eq_left']
      exact ⟨fun ⟨⟨first, permanent⟩, _⟩ => ⟨permanent, first⟩, fun ⟨permanent, first⟩ =>
        ⟨⟨first, permanent⟩, addressIsDead_of_nonexistenceFirst first⟩⟩

/-- A permanent failure with a policy wording is held against the recipient exactly
where its text names a recipient that does not exist before it says anything else. -/
theorem policy_never_suppresses_iff (code : Option Int) (response : Option String) :
    (wording .policyRejected (wordsOf response) = true →
      shouldSuppress code response (classify code response).failureClass = false) ↔
    (wording .policyRejected (wordsOf response) = true →
      ¬ ∃ c ∈ code, (500 ≤ c ∧ c < 600) ∧ nonexistenceFirst c (wordsOf response) = true) := by
  rw [← judgedDead_iff, Bool.not_eq_true]
  rfl

/-- A rejection for reputation that also has the stock phrase for a dead mailbox. -/
def blockedByReputation : Option String :=
  some "Mailbox unavailable: blocked by our reputation policy"

/-- It is held against the recipient. -/
theorem blockedByReputation_suppresses :
    wording .policyRejected (wordsOf blockedByReputation) = true ∧
      shouldSuppress (some 550) blockedByReputation
        (classify (some 550) blockedByReputation).failureClass = true := by
  decide +kernel

end Emaild
