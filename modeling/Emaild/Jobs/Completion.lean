import Emaild.Jobs.Queue

/-!
How a job that was claimed ends. The row is locked from the claim to the end of the
transaction; execution touches domains only; and the outcome is recorded in the same
session, which can take no more after a flush that was refused.
-/
namespace Emaild
open Relational Text Transition

/-! The execution leaves the queue alone. -/

section Untouched
variable {σ : Type} {R : World σ → World σ → Prop} (c : Mxroute.Client σ) (rt : Runtime)

theorem World.database_keeps : (World.database (σ := σ)).Keeps R := fun _ _ h h' => ⟨h, h'⟩

/-- A relation that looks at the jobs only. -/
def AboutJobs (R : World σ → World σ → Prop) : Prop :=
  ∀ base w w', R base w → w'.db.jobs = w.db.jobs → R base w'

variable (jobsOnly : AboutJobs R)
include jobsOnly

theorem World.attempt_keeps {α : Type} (f : σ → Except Raised α × σ) :
    (World.attempt f).Keeps R := by
  intro base s h h'
  rw [World.exec_attempt]
  exact ⟨jobsOnly _ _ _ h rfl, jobsOnly _ _ _ h' rfl⟩

theorem World.call_keeps {α : Type} (f : σ → Except Raised α × σ) : (World.call f).Keeps R :=
  .bind (World.attempt_keeps jobsOnly f) fun _ => .lift _

theorem World.flush_keeps {f : Database → Except Raised Database}
    (same : ∀ db db', f db = .ok db' → db'.jobs = db.jobs) :
    (World.flush (σ := σ) f).Keeps R := by
  intro base s h h'
  rw [World.exec_flush]
  split
  · rename_i db flushed
    exact ⟨h, jobsOnly _ _ _ h' (same _ _ flushed)⟩
  · exact ⟨h, h⟩

variable {others : Nat → Database → Database}
  (beside : ∀ n base w, R base w → R base { w with db := others n w.db })
include beside

theorem addDomain_keeps (rawName : String) (id : Nat) :
    (addDomain c rt rawName id others).Keeps R := by
  refine .bind World.database_keeps fun _ => .bind (.lift _) fun found => ?_
  cases found with
  | some existing => exact .bind (.interfere (beside 0)) fun _ => .pure _
  | none =>
      refine .bind (World.call_keeps jobsOnly _) fun captured => ?_
      refine .bind (.interfere (beside 0)) fun _ => ?_
      refine .bind (World.flush_keeps jobsOnly fun db db' inserted => ?_) fun _ => .lift _
      obtain ⟨domain, _, inserted⟩ := ok_of_bind_ok inserted
      split at inserted
      · cases inserted
      split at inserted
      · cases inserted
        rfl
      · cases inserted

theorem refreshDomain_keeps (resolver : Resolver) (domainName : String) (now : Time) :
    (refreshDomain c rt resolver domainName now others).Keeps R := by
  refine .bind World.database_keeps fun _ => .bind (.lift _) fun found => ?_
  cases found with
  | none => exact .throw _
  | some domain =>
      refine .bind (World.attempt_keeps jobsOnly _) fun answer => ?_
      split
      · exact .pure _
      · exact .throw _
      · refine .bind (.lift _) fun report => .bind (.interfere (beside 0)) fun _ => ?_
        refine .bind World.database_keeps fun _ => ?_
        dsimp only
        split <;> exact .pure _

theorem execute_keeps (run : JobRun) (job : ProvisioningJob) :
    (Jobs.execute c rt run job others).Keeps R := by
  unfold Jobs.execute
  cases job.jobType with
  | addDomain =>
      exact .bind (.lift _) fun name => .bind (addDomain_keeps c rt jobsOnly beside name _)
        fun _ => .pure _
  | verifyDomain =>
      refine .bind (.lift _) fun name => .bind World.database_keeps fun _ =>
        .bind (.lift _) fun found => ?_
      cases found with
      | none => exact .throw _
      | some domain =>
          exact .bind (refreshDomain_keeps c rt jobsOnly beside _ _ _) fun _ =>
            .bind (.interfere (beside 1)) fun _ => .pure _

end Untouched

/-! What an execution raises. -/

/-- What is raised comes from the libraries. -/
abbrev Technical {α : Type} (x : Except Raised α) : Prop := OnlyRaises Raised.Library x

theorem technical_scalarOneOrNone {α : Type} (rows : List α) :
    Technical (scalarOneOrNone rows) := by
  unfold scalarOneOrNone
  split
  · exact .ok _
  · exact .ok _
  · exact .error trivial

section Documents

theorem technical_member (value : Json) (key : String) : Technical (member value key) := by
  unfold member
  split
  · exact .ok _
  · exact .error trivial

theorem technical_memberOr (value : Json) (key : String) (fallback : Json) :
    Technical (memberOr value key fallback) := by
  unfold memberOr
  split
  · exact .ok _
  · exact .error trivial

theorem technical_asText (value : Json) : Technical (asText value) := by
  unfold asText
  split
  · exact .ok _
  · exact .error trivial

theorem technical_iterate (value : Json) : Technical (iterate value) := by
  unfold iterate
  split
  · exact .ok _
  · exact .error trivial

theorem technical_join (separator : String) (values : List Json) :
    Technical (join separator values) := by
  unfold join
  split
  · exact .ok _
  · exact .error trivial

theorem technical_mxRecords (dnsInfo : Json) : Technical (mxRecords dnsInfo) :=
  .bind (technical_member ..) fun _ => technical_iterate _

theorem technical_sectionMember (dnsInfo : Json) (name key : String) :
    Technical (sectionMember dnsInfo name key) :=
  .bind (technical_member ..) fun _ => technical_member ..

theorem technical_dnsRequirements (dnsInfo : Json) : Technical (dnsRequirements dnsInfo) := by
  refine .bind (.bind (technical_mxRecords _) fun _ => .bind (.mapM fun _ => technical_member ..)
    fun _ => .pure _) fun _ => ?_
  exact .bind (technical_sectionMember ..) fun _ => .bind (technical_sectionMember ..) fun _ =>
    .bind (technical_sectionMember ..) fun _ => .bind (technical_sectionMember ..) fun _ => .pure _

theorem technical_firstHost (dnsInfo : Json) : Technical (firstHost dnsInfo) := by
  refine .bind (technical_mxRecords _) fun records => ?_
  split
  · exact .pure _
  · exact .bind (technical_member ..) fun _ => .pure _

theorem technical_requiredDnsRecords (str : Json → String) (domain : String) (dnsInfo : Json) :
    Technical (requiredDnsRecords str domain dnsInfo) := by
  refine .bind (technical_mxRecords _) fun _ => .bind (.mapM fun _ => ?_) fun _ =>
    .bind (technical_sectionMember ..) fun _ => .bind (technical_member ..) fun _ =>
    .bind ?_ fun _ => .bind (technical_member ..) fun _ => .bind ?_ fun _ => .pure _
  · exact .bind (technical_memberOr ..) fun _ => .bind (technical_memberOr ..) fun _ => .pure _
  · refine .bind (technical_member ..) fun _ => ?_
    split
    · exact .bind (technical_memberOr ..) fun _ => .bind (technical_asText _) fun _ => .pure _
    · exact .pure _
  · refine .bind (technical_member ..) fun _ => ?_
    split
    · exact .bind (technical_memberOr ..) fun _ => .pure _
    · exact .pure _

end Documents

section Checks
variable (rt : Runtime)

theorem technical_resolve {α : Type} (spell : α → Option String) (found : Lookup α) :
    Technical (resolve spell found) := by
  unfold resolve
  split
  · exact .ok _
  · exact .ok _
  · split
    · exact .ok _
    · exact .error trivial
  · exact .error trivial

theorem technical_checkMx (domain : String) (hosts : List Json)
    (resolver : String → Lookup MxRecord) : Technical (checkMx rt domain hosts resolver) := by
  refine .bind (technical_resolve ..) fun found => ?_
  split
  · exact .pure _
  · exact .bind (technical_join ..) fun _ => .pure _
  · refine .bind (.mapM fun value => ?_) fun _ => .bind ?_ fun _ => ?_
    · unfold foundHost
      split
      · exact .ok _
      · exact .error trivial
    · unfold primaryHost
      split
      · exact .ok _
      · exact .bind (technical_asText _) fun _ => .pure _
    · split <;> exact .pure _

theorem technical_checkSpf (domain : String) (value : Json)
    (resolver : String → Lookup TxtRecord) : Technical (checkSpf rt domain value resolver) := by
  refine .bind (technical_resolve ..) fun found => ?_
  split
  · exact .pure _
  · split
    · exact .pure _
    · split <;> exact .pure _
    · exact .pure _

theorem technical_checkDkim (domain : String) (selectorName value : Json)
    (resolver : String → Lookup TxtRecord) :
    Technical (checkDkim domain selectorName value resolver) := by
  unfold checkDkim
  split
  · exact .pure _
  · refine .bind (technical_asText _) fun _ => .bind (technical_resolve ..) fun found => ?_
    split
    · exact .pure _
    · exact .pure _
    · refine .bind (technical_asText _) fun _ => ?_
      dsimp only
      split <;> exact .pure _

theorem technical_checkDmarc (domain : String) (resolver : String → Lookup TxtRecord) :
    Technical (checkDmarc rt domain resolver) := by
  refine .bind (technical_resolve ..) fun found => ?_
  split
  · exact .pure _
  · split <;> exact .pure _

theorem technical_checkOwnership (domain : String) (tokenName : Json)
    (resolver : String → Lookup TxtRecord) :
    Technical (checkOwnership domain tokenName resolver) := by
  unfold checkOwnership
  split
  · exact .pure _
  · refine .bind (technical_asText _) fun _ => .bind (technical_resolve ..) fun found => ?_
    split
    · exact .pure _
    · split <;> exact .pure _

theorem technical_verifyDomain (domain : String) (dnsInfo : Json) (resolver : Resolver) :
    Technical (verifyDomain rt domain dnsInfo resolver) :=
  .bind (technical_dnsRequirements _) fun _ => .bind (technical_checkMx ..) fun _ =>
    .bind (technical_checkSpf ..) fun _ => .bind (technical_checkDkim ..) fun _ =>
    .bind (technical_checkDmarc ..) fun _ => .bind (technical_checkOwnership ..) fun _ => .pure _

end Checks

section Columns
variable (rt : Runtime)

theorem technical_assigned (limit : Nat) (value : Option Json) (loaded : Option String) :
    Technical (assigned rt limit value loaded) := by
  unfold assigned
  split
  · unfold bindText
    split
    · exact .ok _
    · split
      · exact .ok _
      · exact .error trivial
    · exact .error trivial
  · exact .ok _

theorem technical_newDomain (id : Nat) (name : String)
    (captured : Option (List DnsRecord × Json)) : Technical (newDomain rt id name captured) := by
  refine .bind (technical_assigned ..) fun _ => ?_
  split
  · exact .pure _
  · exact .error trivial

theorem technical_insertDomain (db : Database) (id : Nat) (name : String)
    (captured : Option (List DnsRecord × Json)) :
    Technical (db.insertDomain rt id name captured) := by
  refine .bind (technical_newDomain ..) fun _ => ?_
  split
  · exact .error trivial
  · split
    · exact .pure _
    · exact .error trivial

theorem technical_domainChanges {σ : Type} (c : Mxroute.Client σ) (domainName : String)
    (domain : Domain) (dnsInfo : Json) (report : DomainDnsReport) (status : DomainStatus)
    (now : Time) : Technical (domainChanges c domainName domain dnsInfo report status now) :=
  .bind (technical_firstHost _) fun _ => .bind (technical_requiredDnsRecords ..) fun _ =>
    .bind (technical_sectionMember ..) fun _ => .pure _

end Columns

/-! The provider's client. -/

/-- What a call raises: an error of the provider, or what the libraries raise. -/
def Raised.Remote (e : Raised) : Prop := e.Library ∨ ∃ p, e = provider p

section Client
variable {σ : Type} (c : Mxroute.Client σ)
open Mxroute

theorem remote_refusal (d : Decoding) (status : Nat) (payload : Json) :
    (d.refusal status payload).Remote := by
  unfold Decoding.refusal
  dsimp only
  split
  · split
    · exact .inr ⟨_, rfl⟩
    · exact .inr ⟨_, rfl⟩
  · exact .inl trivial

theorem remote_handle (d : Decoding) (response : Response) (r : Request) :
    OnlyRaises Raised.Remote (d.handle response r) := by
  unfold Decoding.handle
  dsimp only
  repeat' split
  all_goals first
    | exact .ok _
    | exact .error (.inr ⟨_, rfl⟩)
    | exact .error (.inl trivial)
    | exact .error (remote_refusal ..)

theorem remote_answer (d : Decoding) (response : Response) (r : Request) :
    OnlyRaises Raised.Remote (d.answer response r) := by
  refine .bind ?_ fun _ => remote_handle ..
  unfold Response.logBudget
  split
  · split
    · exact .error (.inl trivial)
    · exact .ok _
  · exact .ok _

theorem remote_attempts (r : Request) (left : List Nat) (last : Option MxrouteError) (far : σ) :
    OnlyRaises Raised.Remote (c.attempts r left last far).1 := by
  induction left generalizing last far with
  | nil => exact .error (.inr ⟨_, rfl⟩)
  | cons attempt rest ih =>
      rw [Client.attempts]
      split
      · exact ih _ _
      · split
        · split
          · exact .error (.inl trivial)
          · exact ih _ _
        · exact remote_answer ..

theorem remote_request (r : Request) (far : σ) :
    OnlyRaises Raised.Remote (c.request r far).1 := remote_attempts ..

theorem remote_call {α : Type} (r : Request) {decode : Json → Except Raised α}
    (technical : ∀ value, Technical (decode value)) (far : σ) :
    OnlyRaises Raised.Remote (c.call r decode far).1 :=
  .bind (remote_request c r far) fun value => (technical value).mono fun _ => .inl

theorem technical_dict (value : Json) : Technical (Client.dict value) := by
  unfold Client.dict
  split
  · exact .ok _
  · exact .error trivial

theorem technical_list (value : Json) : Technical (Client.list value) := by
  unfold Client.list
  split
  · exact .ok _
  · exact .error trivial

theorem remote_getDns (domain : String) (far : σ) :
    OnlyRaises Raised.Remote (c.getDns domain far).1 := remote_call c _ technical_dict far

theorem remote_captureRecords (domainName : String) {answer : Except Raised Json}
    (remote : OnlyRaises Raised.Remote answer) :
    OnlyRaises Raised.Remote (captureRecords c domainName answer) := by
  unfold captureRecords
  split
  · refine .bind ((technical_requiredDnsRecords ..).mono fun _ => .inl) fun _ => ?_
    exact .bind ((technical_firstHost _).mono fun _ => .inl) fun _ => .pure _
  · exact .pure _
  · exact .error (remote.raises _ rfl)

theorem remote_createUnlessListed (domainName : String) (remote : List Json) (far : σ) :
    OnlyRaises Raised.Remote (createUnlessListed c domainName remote far).1 := by
  unfold createUnlessListed
  split
  · exact .ok _
  · have created := remote_call c (.createDomain domainName) technical_dict far
    split
    · exact .ok _
    · exact .ok _
    · rename_i e _ _ refused
      exact .error (created.raises e (congrArg Prod.fst refused))

theorem remote_registerDomain (domainName : String) (far : σ) :
    OnlyRaises Raised.Remote (registerDomain c domainName far).1 := by
  unfold registerDomain
  split
  · rename_i e _ failed
    have listed := remote_call c .domains technical_list far
    exact .error (listed.raises e (congrArg Prod.fst failed))
  · rename_i remote later _
    have created := remote_createUnlessListed c domainName remote later
    split
    · rename_i e _ failed
      rw [failed] at created
      exact .error (created.raises e rfl)
    · exact remote_captureRecords c domainName (remote_getDns c domainName _)

end Client

/-! How an execution ends. -/

/-- What the handlers of `run_one` are told. Only an addition is refused by the provider. -/
def ProvisioningJob.Told (job : ProvisioningJob) : Except Raised String → Prop
  | .ok text => text ≠ ""
  | .error (.job message) => message ≠ ""
  | .error (.provider _) =>
      job.jobType = .addDomain ∧ ∃ domain, job.domain (.string "") = .ok domain
  | .error _ => True

theorem ProvisioningJob.Told.of_library {job : ProvisioningJob} {e : Raised} (h : e.Library) :
    job.Told (.error e) := by
  cases e <;> trivial

theorem ProvisioningJob.Told.of_job {job : ProvisioningJob} {message : String}
    (h : message ≠ "") : job.Told (.error (.job message)) := h

theorem ProvisioningJob.Told.of_text {job : ProvisioningJob} {text : String} (h : text ≠ "") :
    job.Told (.ok text) := h

theorem append_ne_empty {a b : String} (h : b ≠ "") : a ++ b ≠ "" := by
  intro empty
  exact h (String.append_eq_empty_iff.mp empty).2

section Ends
variable {σ : Type} (c : Mxroute.Client σ) (rt : Runtime) {job : ProvisioningJob}

theorem told_cleanDomain (value : Json) :
    OnlyRaises (fun e => job.Told (.error e)) (cleanDomain rt value) := by
  refine .bind ((technical_asText _).mono fun _ => .of_library) fun text => ?_
  dsimp only
  split
  · exact .error (.of_job (by decide))
  · split
    · exact .error (.of_job (by decide))
    · split
      · exact .error (.of_job (by decide))
      · split
        · exact .error (.of_job (append_ne_empty (by decide)))
        · exact .ok _

theorem addDomain_raises (rawName : String) (id : Nat) (others : Nat → Database → Database) :
    (addDomain c rt rawName id others).Raises Raised.Remote := by
  have technical {α : Type} {x : Except Raised α} (only : Technical x) :
      OnlyRaises Raised.Remote x := only.mono fun _ => .inl
  have seen : (World.database (σ := σ)).Raises Raised.Remote := .of_ok fun s => ⟨_, s, rfl⟩
  have beside : (World.meanwhile (σ := σ) (others 0)).Raises Raised.Remote :=
    .of_ok fun s => ⟨_, _, World.exec_meanwhile _ s⟩
  refine .bind seen fun db =>
    .bind (.lift (technical (technical_scalarOneOrNone _))) fun found => ?_
  cases found with
  | some existing => exact .bind beside fun _ => .pure _
  | none =>
      refine .bind ?_ fun captured => .bind beside fun _ => .bind ?_ fun _ =>
        .lift (technical (technical_newDomain ..))
      · intro s e s' run
        rw [World.exec_call] at run
        exact (remote_registerDomain c _ _).raises e (congrArg Prod.fst run)
      · intro s e s' run
        obtain ⟨refused, _⟩ := World.exec_of_flush_error run
        exact .inl ((technical_insertDomain ..).raises e refused)

/-- What a refresh ends with, when it is not refreshed. -/
def Raised.Refreshing (e : Raised) : Prop := e.Library ∨ ∃ message, e = lookupError message

def Refreshed {α β : Type} : Except Raised (Except Raised α × β) → Prop
  | .ok (.ok _, _) => True
  | .ok (.error e, _) | .error e => e.Refreshing

theorem refreshDomain_ends (resolver : Resolver) (domainName : String) (now : Time)
    (others : Nat → Database → Database) :
    (refreshDomain c rt resolver domainName now others).Ensures Refreshed := by
  have technical {α : Type} {x : Except Raised α} (only : Technical x) :
      OnlyRaises Raised.Refreshing x := only.mono fun _ => .inl
  refine .bind (.of_ok fun s => ⟨_, s, rfl⟩) fun db =>
    .bind (.lift (technical (technical_scalarOneOrNone _))) fun found => ?_
  cases found with
  | none => exact .throw (.inr ⟨_, rfl⟩)
  | some domain =>
      refine .andThen (Q := fun r => ∃ far, r = .ok (c.getDns domainName far).1)
        (fun s => ⟨_, congrArg Prod.fst (World.exec_attempt _ s)⟩) (by rintro e ⟨_, ⟨⟩⟩) ?_
      rintro answer ⟨far, ⟨⟩⟩
      split
      · exact .pure trivial
      · rename_i e other failed
        refine .throw (.inl ?_)
        rcases (remote_getDns c domainName far).raises e failed with library | ⟨p, rfl⟩
        · exact library
        · exact absurd rfl (other p)
      · refine .bind (.lift (technical (technical_verifyDomain ..))) fun report =>
          .bind (.of_ok fun s => ⟨_, _, World.exec_meanwhile _ s⟩) fun _ =>
          .bind (.of_ok fun s => ⟨_, s, rfl⟩) fun db => ?_
        dsimp only
        split
        · rename_i e failed
          exact .pure (.inl ((technical_domainChanges ..).raises e failed))
        · exact .pure trivial

theorem message_ne_empty (name : String) (refresh : DomainRefresh) : refresh.message name ≠ "" := by
  unfold DomainRefresh.message
  split
  · intro empty
    have parts := congrArg String.length empty
    simp [ToString.toString] at parts
  · intro empty
    have parts := congrArg String.length empty
    simp [ToString.toString] at parts

theorem Refreshing.told {e : Raised} (h : e.Refreshing) : job.Told (.error e) := by
  rcases h with library | ⟨message, rfl⟩
  · exact .of_library library
  · trivial

theorem execute_ends (run : JobRun) (job : ProvisioningJob)
    (others : Nat → Database → Database) :
    (Jobs.execute c rt run job others).Ensures fun r => job.Told (ending r).1 := by
  have named : OnlyRaises (fun e => job.Told (.error e))
      (job.domain (.string "") >>= cleanDomain rt) :=
    .bind ((technical_memberOr _ _ _).mono fun _ => .of_library) fun value =>
      told_cleanDomain rt value
  unfold Jobs.execute
  cases type : job.jobType with
  | addDomain =>
      cases about : job.domain (.string "") with
      | error e =>
          rw [about] at named
          exact fun s => named.raises e rfl
      | ok domain =>
          rw [about] at named
          refine .bind (.lift named) fun name =>
            .bind (fun s e s' ended => ?_) fun added => .pure ?_
          · have remote := addDomain_raises c rt name run.domainId others s e s' ended
            rcases remote with library | ⟨p, rfl⟩
            · exact .of_library library
            · exact ⟨type, domain, about⟩
          · exact .of_text (append_ne_empty (by decide))
  | verifyDomain =>
      refine .bind (.lift named) fun name => .bind (.of_ok fun s => ⟨_, s, rfl⟩) fun db =>
        .bind (.lift ((technical_scalarOneOrNone _).mono fun _ => .of_library)) fun found => ?_
      cases found with
      | none => exact .throw (.of_job (append_ne_empty (by decide)))
      | some domain =>
          refine .andThen (refreshDomain_ends c rt run.resolver name run.checkedAt others)
            (fun e => Refreshing.told) ?_
          rintro ⟨refreshed, unflushed⟩ ends
          refine .bind (.of_ok fun s => ⟨_, _, World.exec_meanwhile _ s⟩) fun _ => .pure ?_
          cases refreshed with
          | ok refresh => exact message_ne_empty name refresh
          | error e => exact Refreshing.told ends

end Ends

/-! What is recorded. -/

/-- A text that a column takes. -/
abbrev Legible (rt : Runtime) (text : String) : Prop := rt.storesText text = true

section Records
variable {σ : Type} (c : Mxroute.Client σ) (rt : Runtime) (str : Raised → String)

/-- The texts that tell how an execution has ended are ones that a column takes. -/
def ProvisioningJob.Legible (job : ProvisioningJob) (far : σ) : Except Raised String → Prop
  | .ok text | .error (.job text) => Emaild.Legible rt text
  | .error (.provider e) => Emaild.Legible rt e.text ∧
      ∀ domain, job.domain (.string "") = .ok domain →
        Emaild.Legible rt (addFailureMessage c e (c.str domain) far).1
  | .error e => Emaild.Legible rt (str e)

theorem legible_append {a b : String} : Legible rt (a ++ b) ↔ Legible rt a ∧ Legible rt b := by
  simp only [Legible, Runtime.storesText, String.toList_append, List.all_append, Bool.and_eq_true]

/-- An end that is told is recorded with a final status and some text, and the text is one
that the column takes when those it is made of are. -/
theorem jobResult_of_told {job : ProvisioningJob} {outcome : Except Raised String} (far : σ)
    (told : job.Told outcome) :
    ∃ status text far', jobResult c str job outcome far = (.ok (status, text), far') ∧
      status.Final ∧ text ≠ "" ∧ (Legible rt text ↔ job.Legible c rt str far outcome) := by
  cases outcome with
  | ok text => exact ⟨.succeeded, text, far, rfl, .inl rfl, told, .rfl⟩
  | error e =>
      cases e with
      | job message => exact ⟨.failed, message, far, rfl, .inr rfl, told, .rfl⟩
      | provider e =>
          obtain ⟨type, domain, about⟩ := told
          refine ⟨.failed, s!"{e.text}\n\n{(addFailureMessage c e (c.str domain) far).1}",
            (addFailureMessage c e (c.str domain) far).2, ?_, .inr rfl, ?_, ?_⟩
          · rw [jobResult, if_pos type, about]
          · intro empty
            have parts := congrArg String.length empty
            simp [ToString.toString] at parts
          · have newlines : Legible rt (toString "\n\n") := rt.storesText_of_ascii (by decide)
            rw [legible_append, legible_append, and_iff_left newlines]
            refine and_congr .rfl
              ⟨fun advice domain' about' => ?_, fun advice => advice domain about⟩
            cases about.symm.trans about'
            exact advice
      | _ =>
          refine ⟨.failed, _, far, rfl, .inr rfl, ?_, ?_⟩
          · intro empty
            have parts := congrArg String.length empty
            simp [ToString.toString] at parts
          · have unexpected : Legible rt (toString "unexpected error: ") :=
              rt.storesText_of_ascii (by decide)
            rw [legible_append, and_iff_right unexpected]
            exact .rfl

/-- A job is over: its row tells how it has ended, and whatever transactions follow, no
provisioner executes it or finds it again. -/
structure Jobs.Over (jobs : Jobs) (id : Nat) : Prop where
  recorded : ∃ job ∈ jobs, job.id = id ∧ job.status.Final ∧
    (∃ text, job.result = some text ∧ text ≠ "") ∧ job.completedAt ≠ none
  never : ∀ (P : Type) [DecidableEq P] (q : JobQueue P),
    Reaches (JobAction.step c rt str) Any (.start jobs) q →
      (∀ e ∈ q.executing, e.2.id ≠ id) ∧
        ∀ locked tie job, q.current.next locked tie = some job → job.id ≠ id

/-- How an execution ends when its end can be recorded: no flush of it was refused, what it
leaves is accepted, and so are its texts. -/
structure Recordable (job : ProvisioningJob)
    (ended : Except Raised (Except Raised String × Unflushed) × Session (World σ)) : Prop where
  alive : ended.2.expired = false
  accepted : ∃ db, (ending ended.1).2.flush rt ended.2.working.db = .ok db
  legible : job.Legible c rt str ended.2.working.far (ending ended.1).1

theorem Jobs.Over.of_row {jobs : Jobs} {job : ProvisioningJob} {id : Nat}
    (found : jobs.find? id = some job) (final : job.status.Final)
    (text : ∃ text, job.result = some text ∧ text ≠ "") (completed : job.completedAt ≠ none) :
    jobs.Over c rt str id := by
  have mem := Table.mem_of_find? found
  obtain rfl := Table.key_of_find? found
  refine ⟨⟨job, mem, rfl, final, text, completed⟩, fun P _ q run => ?_⟩
  have start : (JobQueue.start (P := P) jobs).Exclusive := ⟨nofun, List.nodup_nil, List.nodup_nil⟩
  obtain ⟨held, kept⟩ := kept_of_run c rt str start mem final run
  refine ⟨held.not_executing kept final, fun locked tie taken found same => ?_⟩
  obtain ⟨there, waits, _⟩ := next_some found
  rw [Table.eq_of_key_eq there kept same] at waits
  rw [waits] at final
  rcases final with h | h <;> cases h

theorem Unflushed.flush_jobs {db db' : Database} {unflushed : Unflushed}
    (h : unflushed.flush rt db = .ok db') : db'.jobs = db.jobs := by
  cases unflushed with
  | nothing =>
      cases h
      rfl
  | part loaded smtpHost requiredRecords =>
      obtain ⟨host, _, h⟩ := ok_of_bind_ok h
      split at h
      · cases h
        rfl
      · cases h
  | all changes =>
      obtain ⟨new, _, h⟩ := ok_of_bind_ok h
      cases h
      rfl

/-- The session of `run_one` when it has claimed a job. -/
def JobRun.begun (run : JobRun) (w : World σ) (id : Nat) : Session (World σ) :=
  ⟨w, { w with db := w.db.claimJob id run.claimedAt }, false⟩

/-- The row of a job has not ended. -/
def Unended (id : Nat) (_ w : World σ) : Prop :=
  ∃ job, w.db.jobs.find? id = some job ∧ ¬ job.status.Final

theorem Unended.not_over {id : Nat} {base w : World σ} (waits : Unended id base w) :
    ¬ w.db.jobs.Over c rt str id := by
  rintro ⟨⟨job, mem, rfl, final, _⟩, _⟩
  obtain ⟨row, found, unended⟩ := waits
  rw [Table.find?_of_mem mem] at found
  cases found
  exact unended final

variable {run : JobRun} {others : Nat → Database → Database} {w : World σ} {job : ProvisioningJob}

/-- Neither what has been committed nor what the session sees has the end of the job. -/
theorem execute_unended (claimed : w.db.jobs.next run.locked run.tie = some job)
    (locked : ∀ n db, (others n db).jobs.find? job.id = db.jobs.find? job.id) :
    let s := ((Jobs.execute c rt run job others).exec (run.begun w job.id)).2
    Unended job.id w s.committed ∧ Unended job.id w s.working := by
  obtain ⟨mem, waits, _⟩ := next_some claimed
  refine execute_keeps c rt (R := Unended job.id) ?_ ?_ run job w (run.begun w job.id) ?_ ?_
  · rintro base w w' ⟨row, found, unended⟩ same
    exact ⟨row, (congrArg (fun jobs : Jobs => jobs.find? job.id) same).trans found, unended⟩
  · rintro n base w ⟨row, found, unended⟩
    exact ⟨row, (locked n w.db).trans found, unended⟩
  · refine ⟨job, Table.find?_of_mem mem, ?_⟩
    rw [waits]
    decide
  · refine ⟨_, (Table.find?_modify_self w.db.jobs job.id (fun job =>
      { job with status := .running, claimedAt := some run.claimedAt }) fun _ => rfl).trans
        (congrArg _ (Table.find?_of_mem mem)), ?_⟩
    dsimp only
    decide

/-- What `run_one` commits, when its execution has ended. -/
theorem sessionScope_runOne (claimed : w.db.jobs.next run.locked run.tie = some job)
    {ended : Except Raised (Except Raised String × Unflushed)} {s : Session (World σ)}
    (executed : (Jobs.execute c rt run job others).exec (run.begun w job.id) = (ended, s))
    {status : JobStatus} {text : String} {far : σ}
    (told : jobResult c str job (ending ended).1 s.working.far = (.ok (status, text), far)) :
    (sessionScope (runOne c rt str run others) w).2.db =
      if s.expired then s.committed.db
      else match s.working.db.completeJob rt job.id (ending ended).2 status text
          run.completedAt with
        | .ok db => db
        | .error _ => s.committed.db := by
  have attempted : (Jobs.execute c rt run job others).attempt.exec
      ⟨w, ⟨w.db.claimJob job.id run.claimedAt, w.far⟩, false⟩ = (.ok ended, s) :=
    congrArg (fun p => (Except.ok p.1, p.2)) executed
  simp only [sessionScope, runOne, Tx.exec_bind, World.exec_database, Session.begin, claimed,
    World.exec_edit, attempted, World.exec_call, told, Tx.exec_look]
  cases dead : s.expired with
  | true => simp
  | false =>
      simp only [Bool.false_eq_true, if_false, Tx.exec_bind, World.exec_flush]
      cases s.working.db.completeJob rt job.id (ending ended).2 status text run.completedAt with
      | ok db => rfl
      | error e => rfl

theorem Jobs.complete_ok_iff {jobs jobs' : Jobs} {id : Nat} {status : JobStatus} {text : String}
    {now : Time} : jobs.complete rt id status text now = .ok jobs' ↔
      Emaild.Legible rt text ∧ (jobs.modify id fun job =>
        { job with status := status, result := some text, completedAt := some now }) = jobs' := by
  unfold Jobs.complete
  by_cases fits : rt.storesText text = true <;> simp [Legible, fits]

theorem Database.completeJob_ok_iff {db db' : Database} {id : Nat} {unflushed : Unflushed}
    {status : JobStatus} {text : String} {now : Time} :
    db.completeJob rt id unflushed status text now = .ok db' ↔
      Legible rt text ∧ ∃ flushed, unflushed.flush rt db = .ok flushed ∧
        db' = { flushed with provisioningJobs := flushed.jobs.modify id fun job =>
          { job with status := status, result := some text, completedAt := some now } } := by
  constructor
  · intro completed
    obtain ⟨flushed, accepted, completed⟩ := ok_of_bind_ok completed
    obtain ⟨jobs, written, completed⟩ := ok_of_bind_ok completed
    obtain ⟨legible, rfl⟩ := (Jobs.complete_ok_iff rt).mp written
    cases completed
    exact ⟨legible, flushed, accepted, rfl⟩
  · rintro ⟨legible, flushed, accepted, rfl⟩
    rw [Database.completeJob, accepted]
    show (flushed.jobs.complete rt id status text now >>= _) = _
    rw [(Jobs.complete_ok_iff rt).mpr ⟨legible, rfl⟩]
    rfl

/-- A job that has been claimed is over when the session of `run_one` is, exactly when the
end of its execution can be recorded. -/
theorem runOne_records_iff (claimed : w.db.jobs.next run.locked run.tie = some job)
    (locked : ∀ n db, (others n db).jobs.find? job.id = db.jobs.find? job.id) :
    (sessionScope (runOne c rt str run others) w).2.db.jobs.Over c rt str job.id ↔
      Recordable c rt str job ((Jobs.execute c rt run job others).exec (run.begun w job.id)) := by
  have unended := execute_unended c rt claimed locked
  have told := execute_ends c rt run job others (run.begun w job.id)
  cases executed : (Jobs.execute c rt run job others).exec (run.begun w job.id) with
  | mk ended s =>
  rw [executed] at unended told
  obtain ⟨status, text, far, recorded, final, nonempty, legible⟩ :=
    jobResult_of_told c rt str s.working.far told
  rw [sessionScope_runOne c rt str claimed executed recorded]
  constructor
  · intro ends
    split at ends
    · exact absurd ends (unended.1.not_over c rt str)
    · rename_i alive
      split at ends
      · rename_i db completed
        obtain ⟨clean, flushed, accepted, _⟩ := (Database.completeJob_ok_iff rt).mp completed
        exact ⟨by simpa using alive, ⟨flushed, accepted⟩, legible.mp clean⟩
      · exact absurd ends (unended.1.not_over c rt str)
  · rintro ⟨alive, ⟨db, accepted⟩, clean⟩
    obtain ⟨row, found, _⟩ := unended.2
    have completed : s.working.db.completeJob rt job.id (ending ended).2 status text
        run.completedAt = .ok _ :=
      (Database.completeJob_ok_iff rt).mpr ⟨legible.mpr clean, db, accepted, rfl⟩
    rw [if_neg (by simp [show s.expired = false from alive]), completed]
    rw [← Unflushed.flush_jobs rt accepted] at found
    have there := (Table.find?_modify_self db.jobs job.id (fun job =>
      { job with status := status, result := some text, completedAt := some run.completedAt })
        fun _ => rfl).trans (congrArg _ found)
    exact .of_row c rt str there final ⟨text, rfl, nonempty⟩ nofun

end Records
/-! A domain is asked for that is not tracked yet. -/
namespace Sample

def waitingJob : ProvisioningJob := (request 1).job "shop.example"

def waitingWorld : World Unit where
  db := { store mailbox with
    domains := Table.empty, mailboxes := Table.empty, apiKeyScopes := Table.empty
    provisioningJobs := Table.empty.insert waitingJob rfl }
  far := ()

def jobRun : JobRun where
  locked _ := false
  tie := id
  claimedAt := 2
  checkedAt := 3
  completedAt := 4
  domainId := 7
  resolver := resolver .absent .absent

/-- A provider that names a host with a character that no column takes. -/
def nulHostClient : Mxroute.Client Unit :=
  dnsClient { status := 200, body := .json (.object [("data", .object [("mx_records", .array
    [.object [("hostname", .string "mx\x00")]])])]) }

/-- The queue after `run_one`. -/
def jobsAfter (c : Mxroute.Client Unit) : Jobs :=
  (sessionScope (runOne c runtime (fun _ => "error") jobRun fun _ => id) waitingWorld).2.db.jobs

end Sample

/-- The insert of the domain is refused, the session takes nothing after that, and the job
is the next one again. -/
theorem refused_insert_is_not_recorded :
    Sample.waitingWorld.db.jobs.next Sample.jobRun.locked Sample.jobRun.tie =
        some Sample.waitingJob ∧
      (Sample.jobsAfter Sample.nulHostClient).next Sample.jobRun.locked Sample.jobRun.tie =
        some Sample.waitingJob ∧
      ¬ (Sample.jobsAfter Sample.nulHostClient).Over Sample.nulHostClient Sample.runtime
        (fun _ => "error") Sample.waitingJob.id := by
  have again : (Sample.jobsAfter Sample.nulHostClient).next Sample.jobRun.locked
      Sample.jobRun.tie = some Sample.waitingJob := by decide +kernel
  refine ⟨rfl, again, fun ended => ?_⟩
  obtain ⟨job, mem, here, final, _⟩ := ended.recorded
  rw [Table.eq_of_key_eq mem (next_some again).1 here] at final
  rcases final with h | h <;> cases h

theorem added_domain_is_recorded :
    (Sample.jobsAfter Sample.payloadClient).Over Sample.payloadClient Sample.runtime
      (fun _ => "error") Sample.waitingJob.id := by
  have claimed : Sample.waitingWorld.db.jobs.next Sample.jobRun.locked Sample.jobRun.tie =
    some Sample.waitingJob := rfl
  have recordable :
      Recordable Sample.payloadClient Sample.runtime (fun _ => "error") Sample.waitingJob
      ((Jobs.execute Sample.payloadClient Sample.runtime Sample.jobRun Sample.waitingJob
        fun _ => id).exec (Sample.jobRun.begun Sample.waitingWorld Sample.waitingJob.id)) := by
    refine ⟨by decide +kernel, ⟨_, rfl⟩, ?_⟩
    show Legible Sample.runtime
      "Added shop.example (status: added). Publish its DNS records, then verify."
    decide
  exact (runOne_records_iff Sample.payloadClient Sample.runtime (fun _ => "error") claimed
    fun _ _ => rfl).mpr recordable

end Emaild
