import Emaild.Classify.Verdicts
import Emaild.Fleet.Recipients

/-!
Whom a recording suppresses. Every address it adds to the list is a recipient that
was refused by name, or the only recipient of a message that failed as a whole.
-/
namespace Emaild
open Relational

/-- A library that names only recipients it was given. -/
def WireOutcome.Names (recipients : List String) : WireOutcome → Prop
  | .returned errors _ => ∀ p ∈ errors, p.1 ∈ recipients
  | .recipientsRefused refused => ∀ p ∈ refused, p.1 ∈ recipients
  | _ => True

def PermanentCode (code : Int) : Prop := 500 ≤ code ∧ code < 600

/-- What an answer holds against an address. -/
inductive Blames (recipients : List String) (r : DeliveryResult) (address : String) : Prop
  /-- It was refused by name, and its own reply says that it is dead. -/
  | named (code : Int) (text : String) (refused : (address, code, text) ∈ r.refused)
      (recipient : address ∈ recipients) (permanent : PermanentCode code)
      (dead : judgedDead (some code) (some text) = true)
  /-- It was the only recipient of a message that failed as a whole. -/
  | only (sole : recipients = [address]) (failed : r.success = false)
      (unnamed : r.refused.rows = []) (code : Int) (coded : r.code = some code)
      (permanent : PermanentCode code)

theorem permanent_of_judgedDead {code : Option Int} {text : Option String}
    (dead : judgedDead code text = true) : ∃ c, code = some c ∧ PermanentCode c := by
  obtain ⟨c, coded, permanent, _⟩ := (judgedDead_iff code text).mp dead
  exact ⟨c, coded, permanent⟩

/-- Whoever is named in an answer of the adapter is a recipient, and was not accepted. -/
theorem refused_of_smtpSend {recipients : List String} {outcome : WireOutcome}
    (names : outcome.Names recipients) {p : String × Reply}
    (refused : p ∈ (smtpSend recipients outcome).refused) :
    p.1 ∈ recipients ∧ p.1 ∉ (smtpSend recipients outcome).acceptedRecipients := by
  cases outcome with
  | returned errors response =>
      refine ⟨names p refused, fun accepted => ?_⟩
      have absent := (List.mem_filter.mp accepted).2
      rw [Table.find?_of_mem (t := errors) refused] at absent
      cases absent
  | recipientsRefused listed =>
      exact ⟨names p (Dict.mem_of_find?_ofList (Table.find?_of_mem refused)), List.not_mem_nil⟩
  | responseException => cases refused
  | transportFailure => cases refused

/-- A failure accepts nobody. -/
theorem acceptedRecipients_of_failure {recipients : List String} {outcome : WireOutcome}
    (failed : (smtpSend recipients outcome).success = false) :
    (smtpSend recipients outcome).acceptedRecipients = [] := by
  cases outcome with
  | returned errors response => simpa [smtpSend] using failed
  | recipientsRefused | responseException | transportFailure => rfl

/-- A recipient that an answer is held against, in the form in which it was sent to. -/
theorem blames_of_candidate {m : Message} {outcome : WireOutcome}
    (names : outcome.Names m.envelopeRecipients) {c : String × Option Int × Option String}
    (candidate : c ∈ suppressionCandidates m (smtpSend m.envelopeRecipients outcome))
    (dead : judgedDead c.2.1 c.2.2 = true) :
    Blames m.envelopeRecipients (smtpSend m.envelopeRecipients outcome) c.1 ∧
      c.1 ∉ (smtpSend m.envelopeRecipients outcome).acceptedRecipients := by
  obtain ⟨address, code, text⟩ := c
  unfold suppressionCandidates at candidate
  dsimp only at candidate
  split at candidate
  · rename_i whole
    obtain ⟨unnamed, failed⟩ := whole
    have accepted := acceptedRecipients_of_failure failed
    split at candidate
    · rename_i only listed
      split at candidate
      · rename_i noBcc
        cases List.mem_singleton.mp candidate
        obtain ⟨code, coded, permanent⟩ := permanent_of_judgedDead dead
        refine ⟨.only ?_ failed (by simpa using unnamed) code coded permanent, by simp [accepted]⟩
        rw [Message.envelopeRecipients, listed, List.isEmpty_iff.mp noBcc, List.append_nil]
      · cases candidate
    · cases candidate
  · obtain ⟨⟨address, code, text⟩, refused, same⟩ := List.mem_map.mp candidate
    cases same
    obtain ⟨recipient, declined⟩ := refused_of_smtpSend names refused
    obtain ⟨_, ⟨⟩, permanent⟩ := permanent_of_judgedDead dead
    exact ⟨.named code text refused recipient permanent dead, declined⟩

/-- A recording lists candidates only, also where another transaction is faster. -/
theorem recordOutcome_listed {rt : Runtime} {race : Race} (r : Recording) {db : Database}
    {m : Message} {id : Nat} (found : db.messages.find? id = some m) {a : String}
    (listed : (sessionScope (recordOutcome rt race id r) db).2.suppressed a) :
    db.suppressed a ∨ Candidate rt (suppressionCandidates m r.result) a := by
  have ends := recordOutcome_ends rt race r found
  generalize sessionScope (recordOutcome rt race id r) db = run at ends listed
  cases ends with
  | failed => exact .inl listed
  | recorded _ _ _ list => exact (list a).mp listed
  | lost _ split _ contested address =>
      rcases suppressed_addSuppressionRow_iff.mp listed with rfl | before
      · refine .inr ⟨_, ?_, contested.1, address⟩
        rw [split]
        exact List.mem_append_right _ List.mem_cons_self
      · exact .inl before

namespace Fleet
open Transition
variable {D : Deployment} {s t : Fleet} {l : Label} {now later : Time} {act : Action}

/-- Attempts address the recipients of their message. -/
def Addressed (s : Fleet) : Prop :=
  ∀ w a, (s.workers w).phase.underWay = some a → s.Tracks a

theorem Initial.addressed (h : s.Initial) : Addressed s := by
  intro w a underWay
  simp [h.workers w, Phase.underWay] at underWay

theorem step_addressed (h : step D s l = some t) (addressed : Addressed s) : Addressed t := by
  obtain ⟨u, e, rfl⟩ := effect_of_step D h
  exact fun w a underWay => e.underWay_tracked addressed underWay

/-- In every run, with any number of workers, whatever the adapter makes of what the
server does, and whatever else is suppressed meanwhile: an address that a recording
adds to the list is the normal form of one that was refused by name in this answer, or
that is the only recipient of a message that failed as a whole, and that was not
accepted. -/
theorem suppressions_are_attributed {start : Fleet} (initial : start.Initial)
    (run : Reaches (step D) Any start s) {w : String} {a : Attempt} {rest : List Nat}
    (awaiting : (s.workers w).phase = .awaiting a rest) {outcome : WireOutcome}
    (names : outcome.Names a.outbound.envelopeRecipients) {latencyMs : Nat} {jitter : Jitter}
    {race : Race} {wait lapse : Nat}
    (records : step D s ⟨wait, lapse, .record w (smtpSend a.outbound.envelopeRecipients outcome)
      latencyMs jitter race⟩ = some t) :
    let result := smtpSend a.outbound.envelopeRecipients outcome
    ∃ m, s.db.messages.find? a.messageId = some m ∧
      m.envelopeRecipients = a.outbound.envelopeRecipients ∧
      ∀ address, t.db.suppressed address → ¬ s.db.suppressed address →
        ∃ recipient, normaliseAddress D.rt recipient = .ok address ∧
          Blames m.envelopeRecipients result recipient ∧ recipient ∉ result.acceptedRecipients := by
  have addressed : Addressed s :=
    run.invariant initial.addressed fun _ _ _ _ h kept => step_addressed h kept
  obtain ⟨m, found, same, _⟩ := addressed w a (by rw [awaiting]; rfl)
  refine ⟨m, found, same, fun address listed free => ?_⟩
  have ends : t.db = (sessionScope (recordOutcome D.rt race a.messageId
      ⟨smtpSend a.outbound.envelopeRecipients outcome, a.number, latencyMs, jitter,
        s.clock + wait, s.clock + wait + lapse⟩) s.db).2 := by
    simp only [step, advance, awaiting, Option.map_some, Option.some.injEq] at records
    rw [← records]
    rfl
  rw [ends] at listed
  obtain ⟨c, candidate, dead, normal⟩ := (recordOutcome_listed _ found listed).resolve_left free
  rw [← same] at names candidate ⊢
  exact ⟨c.1, normal, blames_of_candidate names candidate dead⟩

end Fleet

/-! The letter to Ann and Bob once more: the server does not know Bob. -/
namespace Sample
open Transition Fleet

def bobUnknown : WireOutcome :=
  .returned (Dict.ofList [("bob@example.net", (550, "No such recipient here"))]) "OK"

/-- Whom worker A waits for an answer about. -/
def awaited (s : Fleet) : Option (List String) :=
  match (s.workers "A").phase with
  | .awaiting a _ => some a.outbound.envelopeRecipients
  | _ => none

theorem awaiting_of_awaited {s : Fleet} {recipients : List String}
    (h : awaited s = some recipients) : ∃ a rest, (s.workers "A").phase = .awaiting a rest ∧
      a.outbound.envelopeRecipients = recipients := by
  unfold awaited at h
  split at h
  · rename_i a rest phase
    exact ⟨a, rest, phase, Option.some.inj h⟩
  · cases h

theorem awaitsBoth : (execute (step deployment) claimedBoth callBoth).map awaited =
    some (some both) := by decide +kernel

theorem reaches_awaitingBoth :
    Reaches (step deployment) Any (fleet mailbox) awaitingBoth := by
  have claims : Reaches (step deployment) Any (solo mailbox) claimedBoth :=
    (reaches_final _ claimsBoth fun _ _ _ => trivial).1
  have calls : Reaches (step deployment) Any claimedBoth awaitingBoth :=
    (reaches_final _ awaitsBoth fun _ _ _ => trivial).1
  exact ((started trivial).trans claims).trans calls

/-- A library that takes what stands in quotation marks for an address, and reads the address
in angle brackets out of them. -/
def bracketed : Runtime :=
  { runtime with
    parseaddr := fun raw =>
      if raw = "\"<ann@example.net>\"" then ("", "<ann@example.net>")
      else if raw = "<ann@example.net>" then ("", "ann@example.net")
      else runtime.parseaddr raw }

def bracketedDeployment : Deployment := { deployment with rt := bracketed }

/-- A letter to Ann in quotation marks, up to the call of the adapter. -/
def callQuoted : List Label := [
  now (.start "A"), accept mailbox 1 "\"<ann@example.net>\"" [], claimBy "A" [1],
  now (.deliver "A" false), now (.send "A")]

def awaitingQuoted : Fleet := final (step bracketedDeployment) (fleet mailbox) callQuoted

def annRefused : WireOutcome :=
  .recipientsRefused [("<ann@example.net>", 550, "No such recipient here")]

end Sample

/-- The address that is suppressed is not the one that was refused. -/
theorem rewritten_recipient_suppressed :
    Transition.Reaches (Fleet.step Sample.bracketedDeployment) Transition.Any
      (Sample.fleet Sample.mailbox) Sample.awaitingQuoted ∧
    Sample.awaited Sample.awaitingQuoted = some ["<ann@example.net>"] ∧
    Sample.annRefused.Names ["<ann@example.net>"] ∧
    (∃ t, Fleet.step Sample.bracketedDeployment Sample.awaitingQuoted
        (Sample.recordBy "A" (smtpSend ["<ann@example.net>"] Sample.annRefused)) = some t ∧
      t.db.suppressed "ann@example.net" ∧ ¬ Sample.awaitingQuoted.db.suppressed "ann@example.net") ∧
    ¬ Blames ["<ann@example.net>"] (smtpSend ["<ann@example.net>"] Sample.annRefused)
      "ann@example.net" := by
  have calls : (Transition.execute (Fleet.step Sample.bracketedDeployment)
      (Sample.fleet Sample.mailbox) Sample.callQuoted).map (fun s =>
        (Sample.awaited s, decide (s.db.suppressed "ann@example.net"))) =
          some (some ["<ann@example.net>"], false) := by decide +kernel
  have seen := Transition.view_final calls
  obtain ⟨awaited, free⟩ := Prod.mk.inj seen
  have listed : (Fleet.step Sample.bracketedDeployment Sample.awaitingQuoted
      (Sample.recordBy "A" (smtpSend ["<ann@example.net>"] Sample.annRefused))).map
        (fun s => decide (s.db.suppressed "ann@example.net")) = some true := by decide +kernel
  obtain ⟨t, records, suppressed⟩ := Option.map_eq_some_iff.mp listed
  refine ⟨(Transition.reaches_final _ calls fun _ _ _ => trivial).1, awaited, fun p refused => ?_,
    ⟨t, records, of_decide_eq_true suppressed, of_decide_eq_false free⟩, fun blames => ?_⟩
  · rw [List.mem_singleton.mp refused]
    exact List.mem_singleton_self _
  · cases blames with
    | named _ _ _ recipient => exact absurd (List.mem_singleton.mp recipient) (by decide)
    | only sole => exact absurd (List.cons.inj sole).1 (by decide)

/-- Bob is suppressed, and it is his own reply that is held against him. -/
theorem unknown_recipient_blamed :
    ∃ recipient, normaliseAddress Sample.runtime recipient = .ok "bob@example.net" ∧
      Blames Sample.both (smtpSend Sample.both Sample.bobUnknown) recipient ∧
      recipient ∉ (smtpSend Sample.both Sample.bobUnknown).acceptedRecipients := by
  obtain ⟨a, rest, awaiting, recipients⟩ :=
    Sample.awaiting_of_awaited (Transition.view_final Sample.awaitsBoth)
  have listed : (Fleet.step Sample.deployment Sample.awaitingBoth
      (Sample.recordBy "A" (smtpSend Sample.both Sample.bobUnknown))).map
        (fun s => decide (s.db.suppressed "bob@example.net")) = some true := by decide +kernel
  obtain ⟨t, records, suppressed⟩ := Option.map_eq_some_iff.mp listed
  have named : Sample.bobUnknown.Names a.outbound.envelopeRecipients := by
    intro p refused
    obtain rfl := List.mem_singleton.mp (Dict.mem_of_find?_ofList (Table.find?_of_mem refused))
    rw [recipients]
    decide
  rw [← recipients] at records ⊢
  obtain ⟨m, _, same, blames⟩ := Fleet.suppressions_are_attributed (Sample.fleet_initial _)
    Sample.reaches_awaitingBoth awaiting named records
  rw [same] at blames
  exact blames _ (of_decide_eq_true suppressed) (by decide +kernel)

end Emaild
