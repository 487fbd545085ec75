import Emaild.Dashboard.TestSend

/-!
What the operator is told to do next. There is one step at a time, in the order in which
the pieces depend on each other; it is decided on counts of the rows of each kind.
-/
namespace Emaild
open Relational

structure NextStep where
  title : String
  why : String
  command : Option String := none
  href : Option String := none
  linkLabel : Option String := none
  done : Bool := false
  deriving DecidableEq

/-- `domain_next_action` -/
def domainNextAction (domain : Domain) (hasMailbox : Bool) : Option NextStep :=
  let publish (why : String) : NextStep := {
    title := s!"Publish the DNS records for {domain.name}"
    why := why ++ " They are listed below; re-check once they resolve." }
  match domain.status with
  | .ready => none
  | .suspended => some {
      title := s!"{domain.name} is suspended"
      why := "Suspension is set deliberately and the automatic DNS sweep will " ++
        "not clear it. Nothing will send from this domain until it is lifted." }
  | .misconfigured => some (publish
      ("This domain was working and its DNS no longer checks out, so " ++
        "something changed outside emaild. Compare the records below " ++
        "against your registrar."))
  | .added | .dnsIncomplete | .ownershipPending => some (publish
      ("Receiving servers check DNS to confirm you may send as this domain. " ++
        "Until those records resolve, mail would be rejected or land in spam, " ++
        "so emaild will not send at all."))
  | .verified =>
      if hasMailbox then some {
        title := s!"Re-check {domain.name}"
        why := "The domain has a sender identity but is still marked verified " ++
          "rather than ready. One re-check promotes it."
        href := some "/domains", linkLabel := some "Re-check it" }
      else some {
        title := s!"Create a sender identity on {domain.name}"
        why := "DNS is complete — this is the last step. A sender identity is " ++
          s!"one real address like noreply@{domain.name}, an actual " ++
          "mailbox with its own 400-per-hour budget, and mail can only be " ++
          "sent from one that exists. It is the one step that cannot be " ++
          "done here: creating it needs the MXRoute credential, which this " ++
          "container deliberately does not hold. Run this on the server, " ++
          "in the directory holding compose.yaml. The domain becomes " ++
          "ready by itself once it succeeds."
        command := some s!"./appctl admin mailboxes provision noreply@{domain.name}" }

/-- An action without a command or a page is found on the page of the domains. -/
def NextStep.placed (step : NextStep) : NextStep :=
  if step.command.isNone && step.href.isNone then
    { step with href := some "/domains", linkLabel := some "Open domains" }
  else step

namespace Database
variable (db : Database)

/-- What the first of the domains by name that needs something needs. -/
def domainStep : Option NextStep :=
  (db.domains.rows.insertionSort fun a b => a.name ≤ b.name).findSome? fun domain =>
    domainNextAction domain
      (db.mailboxes.rows.any fun m => m.active && m.domainId = domain.id)

/-- What is missing once all of the domains are ready. -/
def countedStep (baseUrl : String) : NextStep :=
  if db.mailboxes.rows.length = 0 then {
    title := "Create a sender identity"
    why := "A sender identity is one real address like noreply@yourdomain.com. " ++
      "It is an actual mailbox with its own 400-per-hour budget, and mail " ++
      "can only be sent from one that exists."
    command := some "./appctl admin mailboxes provision noreply@yourdomain.com" }
  else if db.projects.rows.length = 0 then {
    title := "Create a project"
    why := "A project is one of your applications. Grouping keys under a " ++
      "project is what keeps one app from reading another app's mail history."
    href := some "/keys", linkLabel := some "Create one" }
  else if db.standingKeys.length = 0 then {
    title := "Create an API key"
    why := "A key is the password your application uses to send. It is " ++
      "restricted to the sender addresses you tick, so a leaked key " ++
      "can send as those and nothing else."
    href := some "/keys", linkLabel := some "Create one" }
  else if db.messages.rows.length = 0 then {
    title := "Send a test message"
    why := "Everything is configured. Sending one message to your own inbox " ++
      "is what proves it: DNS, the sender identity's SMTP credential, " ++
      "and delivery through MXRoute are all exercised, and any of them " ++
      "being wrong is much easier to find now than from inside an application."
    href := some "/test", linkLabel := some "Send one" }
  else {
    title := "Ready to send"
    why := s!"Point your application at {baseUrl} and give it a key. It is " ++
      "wire-compatible with Resend, so a coding assistant already knows the shape."
    href := some "/integrate", linkLabel := some "Get the integration brief", done := true }

/-- `next_step` -/
def nextStep (baseUrl : String) : NextStep :=
  if db.domains.rows.isEmpty then {
    title := "Add a sending domain"
    why := "A domain is the part after the @ in the address you send from. " ++
      "Adding it registers it with MXRoute and fetches the DNS records you need to publish."
    href := some "/domains", linkLabel := some "Add one" }
  else match db.domainStep with
    | some step => step.placed
    | none => db.countedStep baseUrl

end Database

/-! What is decided. -/

theorem domainNextAction_eq_none {domain : Domain} {hasMailbox : Bool} :
    domainNextAction domain hasMailbox = none ↔ domain.status = .ready := by
  unfold domainNextAction
  cases domain.status <;> cases hasMailbox <;> simp

/-- A domain's action is something left to do. -/
theorem domainNextAction_done (domain : Domain) (hasMailbox : Bool) :
    ∀ step, domainNextAction domain hasMailbox = some step → step.done = false := by
  unfold domainNextAction
  cases domain.status <;> cases hasMailbox <;> simp

theorem placed_done (step : NextStep) : step.placed.done = step.done := by
  unfold NextStep.placed
  split <;> rfl

section Decision
variable {db : Database} {baseUrl : String}

theorem domainStep_eq_none : db.domainStep = none ↔ ∀ d ∈ db.domains, d.status = .ready := by
  simp only [Database.domainStep, List.findSome?_eq_none_iff, List.mem_insertionSort,
    domainNextAction_eq_none, Table.mem_def]

theorem countedStep_done : (db.countedStep baseUrl).done = true ↔
    db.mailboxes.rows ≠ [] ∧ db.projects.rows ≠ [] ∧ db.standingKeys ≠ [] ∧
      db.messages.rows ≠ [] := by
  simp only [Database.countedStep, List.length_eq_zero_iff]
  split_ifs <;> simp [*]

/-- What is counted before nothing is left to do. -/
structure Database.Counted (db : Database) : Prop where
  domains : db.domains.rows ≠ []
  ready : ∀ d ∈ db.domains, d.status = .ready
  mailboxes : db.mailboxes.rows ≠ []
  projects : db.projects.rows ≠ []
  keys : db.standingKeys ≠ []
  messages : db.messages.rows ≠ []

theorem domainStep_done {step : NextStep} (asked : db.domainStep = some step) :
    step.done = false := by
  obtain ⟨domain, _, asked⟩ := List.exists_of_findSome?_eq_some asked
  exact domainNextAction_done domain _ step asked

theorem nextStep_done : (db.nextStep baseUrl).done = true ↔ db.Counted := by
  unfold Database.nextStep
  split
  · rename_i empty
    exact iff_of_false Bool.false_ne_true fun counted =>
      counted.domains (List.isEmpty_iff.mp empty)
  · rename_i tracked
    split
    · rename_i step asked
      rw [placed_done, domainStep_done asked]
      refine iff_of_false Bool.false_ne_true fun counted => ?_
      rw [domainStep_eq_none.mpr counted.ready] at asked
      cases asked
    · rename_i nothing
      rw [countedStep_done]
      constructor
      · rintro ⟨mailboxes, projects, keys, messages⟩
        exact ⟨fun empty => tracked (List.isEmpty_iff.mpr empty), domainStep_eq_none.mp nothing,
          mailboxes, projects, keys, messages⟩
      · exact fun counted =>
          ⟨counted.mailboxes, counted.projects, counted.keys, counted.messages⟩

/-- A key in use is scoped to a mailbox that can be sent from. -/
def Database.Connected (db : Database) : Prop :=
  ∃ key ∈ db.apiKeys, ∃ project m d, db.InUse key project ∧
    (⟨key.id, m.id⟩ : ApiKeyScope) ∈ db.apiKeyScopes ∧ db.SendsFrom m d

theorem sendOptions_ne_nil {createdAt : Nat → Time} :
    db.sendOptions createdAt ≠ [] ↔ db.Connected := by
  constructor
  · intro offered
    obtain ⟨o, listed⟩ := List.exists_mem_of_ne_nil _ offered
    obtain ⟨key, mem, project, m, d, inUse, granted, sends, _⟩ := mem_sendOptions.mp listed
    exact ⟨key, mem, project, m, d, inUse, granted, sends⟩
  · rintro ⟨key, mem, project, m, d, inUse, granted, sends⟩
    exact List.ne_nil_of_mem
      (mem_sendOptions.mpr ⟨key, mem, project, m, d, inUse, granted, sends, rfl⟩)

/-! What the counts do not see: a mailbox that is switched off, a project that is, and whether
the key and the mailbox that are counted have to do with each other. -/

/-- The mailboxes that are switched on and belong to a tracked domain. -/
def Database.activeMailboxes (db : Database) : List Mailbox :=
  db.mailboxes.rows.filter fun m => m.active && (db.domains.find? m.domainId).isSome

/-- The counted keys whose project is switched on. -/
def Database.liveKeys (db : Database) : List ApiKey :=
  db.standingKeys.filter fun k => (db.projects.find? k.projectId).any Project.active

/-- The three ways in which rows that are counted are of no use. -/
inductive Database.Disused (db : Database) : Prop
  | silenced (mailboxes : db.activeMailboxes = [])
  | paused (mailboxes : db.activeMailboxes ≠ []) (keys : db.liveKeys = [])
  | unscoped (mailboxes : db.activeMailboxes ≠ []) (keys : db.liveKeys ≠ [])
      (apart : ∀ scope ∈ db.apiKeyScopes, scope.apiKeyId ∈ db.liveKeys.map ApiKey.id →
        scope.mailboxId ∉ db.activeMailboxes.map Mailbox.id)

theorem mem_activeMailboxes {m : Mailbox} : m ∈ db.activeMailboxes ↔
    m ∈ db.mailboxes ∧ m.active = true ∧ ∃ d, db.domains.find? m.domainId = some d := by
  simp [Database.activeMailboxes, Table.mem_def, Option.isSome_iff_exists]

theorem mem_liveKeys {key : ApiKey} : key ∈ db.liveKeys ↔
    key ∈ db.apiKeys ∧ ∃ project, db.InUse key project := by
  rw [Database.liveKeys, List.mem_filter, mem_standingKeys, Option.any_eq_true]
  constructor
  · rintro ⟨⟨mem, active, unrevoked⟩, project, owner, running⟩
    exact ⟨mem, project, active, unrevoked, owner, running⟩
  · rintro ⟨mem, project, inUse⟩
    exact ⟨⟨mem, inUse.active, inUse.unrevoked⟩, project, inUse.owner, inUse.projectActive⟩

/-- With every domain ready, something can be sent from exactly if the counted rows are of
use. -/
theorem connected_iff (ready : ∀ d ∈ db.domains, d.status = .ready) :
    db.Connected ↔ ¬ db.Disused := by
  constructor
  · rintro ⟨key, mem, project, m, d, inUse, granted, sends⟩ disused
    have live : key ∈ db.liveKeys := mem_liveKeys.mpr ⟨mem, project, inUse⟩
    have active : m ∈ db.activeMailboxes :=
      mem_activeMailboxes.mpr ⟨sends.mem, sends.active, d, sends.domain⟩
    cases disused with
    | silenced idle => exact List.not_mem_nil (idle ▸ active)
    | paused _ idle => exact List.not_mem_nil (idle ▸ live)
    | unscoped _ _ apart =>
        exact apart _ granted (List.mem_map_of_mem live) (List.mem_map_of_mem active)
  · intro useful
    by_contra unconnected
    by_cases mailboxes : db.activeMailboxes = []
    · exact useful (.silenced mailboxes)
    by_cases keys : db.liveKeys = []
    · exact useful (.paused mailboxes keys)
    refine useful (.unscoped mailboxes keys fun scope granted live active => unconnected ?_)
    obtain ⟨key, live, ofKey⟩ := List.mem_map.mp live
    obtain ⟨m, active, ofMailbox⟩ := List.mem_map.mp active
    obtain ⟨mem, project, inUse⟩ := mem_liveKeys.mp live
    obtain ⟨stored, on, d, domain⟩ := mem_activeMailboxes.mp active
    refine ⟨key, mem, project, m, d, inUse, ?_,
      ⟨stored, domain, on, ready d (Table.mem_of_find? domain)⟩⟩
    rw [ofKey, ofMailbox]
    exact granted

end Decision

namespace Sample

/-- The only mailbox has been deactivated after a letter was accepted. -/
def silenced : Database :=
  { store { mailbox with active := false } with
    messages := Table.empty.insert (newMessage (principal mailbox) (letter "ann@example.net" [])
      ⟨mailbox, domain⟩ none ["ann@example.net"] [] [] ⟨1, "A"⟩ 0) rfl }

end Sample

end Emaild
