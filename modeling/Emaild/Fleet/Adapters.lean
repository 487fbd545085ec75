import Emaild.Fleet.Steps
import Emaild.Provisioning.Agreement
import Emaild.Smtp

/-!
The adapters that worker processes keep, and the passwords they log in with. A
process makes an adapter for a mailbox when it first delivers from it, and keeps
it for its life; an operator may rotate the password at any time. Rotations are
counted for each mailbox, and an adapter and a delivery know the count at which
the mailbox was read.
-/
namespace Emaild
open Relational Transition Mxroute

/-- The adapter of `_adapters`, with the number of rotations of its mailbox that had
been committed when it was made. -/
structure CachedAdapter where
  adapter : SmtpAdapter
  builtAfter : Nat

/-- The adapter as it was made, whatever has become of its connection. -/
def CachedAdapter.Like (k k' : CachedAdapter) : Prop :=
  k'.builtAfter = k.builtAfter ∧ k'.adapter.password = k.adapter.password

/-- A login, with the mailbox as the first transaction of the delivery read it. -/
structure Login where
  worker : String
  read : Mailbox
  username : String
  password : String

/-- The login uses the password that the delivery has read. -/
def Login.Agrees (cipher : MailboxCipher) (l : Login) : Prop :=
  cipher.decrypt l.read.passwordEncrypted = some l.password

instance (cipher : MailboxCipher) (l : Login) : Decidable (l.Agrees cipher) :=
  inferInstanceAs (Decidable (_ = _))

/-- The fleet with what its processes keep beside their phases. -/
structure Service where
  fleet : Fleet
  accounts : Accounts
  adapters : String → Dict Nat CachedAdapter
  /-- The mailboxes whose rotation was committed, one entry for each. -/
  rotations : List Nat
  /-- The rotations that a worker's delivery in hand had seen. -/
  readAfter : String → Nat
  logins : List Login

namespace Service

/-- What a service is set up with. -/
structure Setup where
  deployment : Deployment
  installation : Installation
  workerHoldsKey : Bool
  fallback : ServerLimits

variable (S : Setup)

/-- How often the mailbox has been rotated. -/
def rotated (s : Service) (mailboxId : Nat) : Nat := s.rotations.count mailboxId

/-- `_adapter_for`: the cache with an adapter for the mailbox, unless one cannot be
made. -/
def adapterFor (s : Service) (w : String) (mailbox : Mailbox) : Option (Dict Nat CachedAdapter) :=
  match (s.adapters w).get? mailbox.id with
  | some _ => some (s.adapters w)
  | none =>
      if S.workerHoldsKey then
        (S.installation.cipher.decrypt mailbox.passwordEncrypted).map fun password =>
          Dict.set (s.adapters w) mailbox.id
            { adapter :=
                { username := mailbox.address, password := password, fallback := S.fallback }
              builtAfter := s.rotated mailbox.id }
      else none

/-- Whether `_adapter_for` raises in the delivery that is the worker's turn. -/
def adapterFails (s : Service) (w : String) : Bool :=
  match (s.fleet.workers w).phase with
  | .serving (id :: _) =>
      match deliveryRow s.fleet.db id with
      | some (_, mailbox, _) => (s.adapterFor S w mailbox).isNone
      | none => false
  | _ => false

/-- The first transaction of a delivery has left the worker in this phase. -/
def opened (s : Service) (w : String) (fleet : Fleet) : Option Service :=
  match (fleet.workers w).phase with
  | .stamped a _ _ => (s.adapterFor S w a.mailbox).map fun cache =>
      { s with
        fleet := fleet
        adapters := Function.update s.adapters w cache
        readAfter := Function.update s.readAfter w (s.rotated a.mailbox.id) }
  | _ => some { s with fleet := fleet }

/-- `adapter.send` of the attempt in hand, once its message has been built. -/
def speak (s : Service) (w : String) (a : Attempt) (k : CachedAdapter) (c : Conversation) :
    Service :=
  let (_, adapter) := k.adapter.send a.outbound.envelopeRecipients a.host c
  { s with
    adapters := Function.update s.adapters w
      (Dict.set (s.adapters w) a.mailbox.id { k with adapter := adapter })
    logins := match k.adapter.login? c with
      | some (username, password) => s.logins ++ [⟨w, a.mailbox, username, password⟩]
      | none => s.logins }

/-- The steps of the fleet, with what happens in a call of the adapter (nothing, if
the message cannot be built), and rotations. -/
inductive Action
  | work (l : Label) (c : Option Conversation)
  | rotate (address : String) (draw : PasswordDraw) (update : Line)

/-- What a step of the fleet means for the adapters. -/
def follow (s : Service) (c : Option Conversation) (fleet : Fleet) :
    Emaild.Action → Option Service
  -- a new process has an empty cache
  | .start w => some { s with fleet := fleet, adapters := Function.update s.adapters w Table.empty }
  | .deliver w fails => if fails = s.adapterFails S w then s.opened S w fleet else none
  | .send w =>
      match (s.fleet.workers w).phase, c with
      | .stamped a _ _, some c =>
          match (s.adapters w).get? a.mailbox.id with
          | some k => some { s.speak w a k c with fleet := fleet }
          | none => none
      | _, _ => some { s with fleet := fleet }
  | _ => some { s with fleet := fleet }

def step (s : Service) : Action → Option Service
  | .work l c => (s.fleet.step S.deployment l).bind fun fleet => s.follow S c fleet l.action
  | .rotate address draw update =>
      let (result, world) := sessionScope (rotateMailboxPassword
        (Mxroute.Client.over S.installation.decoding update update) S.installation.cipher address
        draw) ⟨s.fleet.db, s.accounts⟩
      some { s with
        fleet := { s.fleet with db := world.db }
        accounts := world.far
        rotations :=
          match result with
          | .ok _ => (s.fleet.db.mailboxesNamed address).map Mailbox.id ++ s.rotations
          | .error _ => s.rotations }

/-- No process is alive, and nothing has been rotated or logged in to. -/
structure Initial (s : Service) : Prop where
  fleet : s.fleet.Initial
  adapters : ∀ w, s.adapters w = Table.empty
  rotations : s.rotations = []
  logins : s.logins = []

/-- The step performs a login, with an adapter that was made before a rotation that the
delivery has seen, or after one that it has not. -/
def outdated (s : Service) : Action → Bool
  | .work ⟨_, _, .send w⟩ (some c) =>
      match (s.fleet.workers w).phase with
      | .stamped a _ _ => ((s.adapters w).get? a.mailbox.id).any fun k =>
          (k.adapter.login? c).isSome && decide (k.builtAfter ≠ s.readAfter w)
      | _ => false
  | _ => false

/-- No rotation of the mailbox was committed between the making of the adapter and the
first transaction of the delivery, if the step performs a login. -/
def Fresh (s : Service) (act : Action) : Prop := s.outdated act = false

instance (s : Service) (act : Action) : Decidable (s.Fresh act) :=
  inferInstanceAs (Decidable (_ = _))

/-! What holds after every step. -/

/-- The adapter has the password of the mailbox, unless that was rotated since. -/
def Current (s : Service) (id : Nat) (k : CachedAdapter) : Prop :=
  k.builtAfter ≤ s.rotated id ∧ (k.builtAfter = s.rotated id → ∃ m,
    s.fleet.db.mailboxes.find? id = some m ∧
      S.installation.cipher.decrypt m.passwordEncrypted = some k.adapter.password)

/-- The adapter has the password that the delivery has read, unless that was rotated
between the two. -/
def Matches (s : Service) (w : String) (a : Attempt) (k : CachedAdapter) : Prop :=
  k.builtAfter = s.readAfter w →
    S.installation.cipher.decrypt a.mailbox.passwordEncrypted = some k.adapter.password

structure Sound (s : Service) : Prop where
  cached : ∀ w id k, (s.adapters w).get? id = some k → s.Current S id k
  stamped : ∀ w a store rest k, (s.fleet.workers w).phase = .stamped a store rest →
    (s.adapters w).get? a.mailbox.id = some k → s.Matches S w a k
  logins : ∀ l ∈ s.logins, l.Agrees S.installation.cipher

theorem Initial.sound {s : Service} (h : s.Initial) : s.Sound S where
  cached w id k cached := by
    rw [h.adapters] at cached
    cases cached
  stamped w a store rest k turn := by
    rw [h.fleet.workers] at turn
    cases turn
  logins l mem := by
    rw [h.logins] at mem
    cases mem

variable {S} {s t : Service}

/-- No step of the fleet writes a password. -/
theorem passwords_kept {l : Label} {fleet : Fleet}
    (h : s.fleet.step S.deployment l = some fleet) {id : Nat} {m : Mailbox}
    (found : s.fleet.db.mailboxes.find? id = some m) :
    ∃ m', fleet.db.mailboxes.find? id = some m' ∧ m'.passwordEncrypted = m.passwordEncrypted := by
  obtain ⟨u, e, rfl⟩ := Fleet.effect_of_step S.deployment h
  cases e.mailbox id with
  | same eq => exact ⟨m, eq.trans found, rfl⟩
  | changed _ eq => exact ⟨_, eq.trans (congrArg _ found), rfl⟩

theorem Current.like {id : Nat} {k k' : CachedAdapter} (h : s.Current S id k)
    (like : CachedAdapter.Like k k') : s.Current S id k' := by
  unfold Current
  rw [like.1, like.2]
  exact h

/-- Adapters stay current in a step of the fleet. -/
theorem Current.work {l : Label} (h : s.fleet.step S.deployment l = some t.fleet)
    (rotations : t.rotations = s.rotations) {id : Nat} {k : CachedAdapter}
    (current : s.Current S id k) : t.Current S id k := by
  unfold Current rotated
  rw [rotations]
  refine ⟨current.1, fun last => ?_⟩
  obtain ⟨m, found, password⟩ := current.2 last
  obtain ⟨m', found', same⟩ := passwords_kept h found
  exact ⟨m', found', by rw [same, password]⟩

/-- The cache of a worker that has the adapter for a mailbox it has just read. -/
theorem current_adapterFor {w : String} {mailbox : Mailbox} {cache : Dict Nat CachedAdapter}
    (current : ∀ id k, (s.adapters w).get? id = some k → s.Current S id k)
    (read : s.fleet.db.mailboxes.find? mailbox.id = some mailbox)
    (h : s.adapterFor S w mailbox = some cache) :
    ∀ id k, cache.get? id = some k → s.Current S id k := by
  intro id k cached
  unfold adapterFor at h
  split at h
  · cases h
    exact current id k cached
  split at h
  · obtain ⟨password, decrypted, rfl⟩ := Option.map_eq_some_iff.mp h
    rw [Dict.get?_set] at cached
    split at cached
    · rename_i here
      subst here
      cases cached
      exact ⟨le_rfl, fun _ => ⟨mailbox, read, decrypted⟩⟩
    · exact current id k cached
  · cases h

/-- After a step of the fleet, from what has become of each part. -/
theorem Sound.work {l : Label} (h : s.fleet.step S.deployment l = some t.fleet)
    (rotations : t.rotations = s.rotations)
    (cached : ∀ w id k, (t.adapters w).get? id = some k →
      ∃ k₀, s.Current S id k₀ ∧ CachedAdapter.Like k₀ k)
    (stamped : ∀ w a store rest k, (t.fleet.workers w).phase = .stamped a store rest →
      (t.adapters w).get? a.mailbox.id = some k → t.Matches S w a k)
    (logins : ∀ l ∈ t.logins, l.Agrees S.installation.cipher) : t.Sound S where
  cached w id k found := by
    obtain ⟨k₀, current, like⟩ := cached w id k found
    exact (current.like like).work h rotations
  stamped := stamped
  logins := logins

/-- An attempt that is stamped after a step was so before, unless the step opens it. -/
theorem stamped_before {l : Label} {fleet : Fleet}
    (h : s.fleet.step S.deployment l = some fleet) {w : String} {a : Attempt} {store : Database}
    {rest : List Nat} (turn : (fleet.workers w).phase = .stamped a store rest) :
    (s.fleet.workers w).phase = .stamped a store rest ∨ ∃ fails, l.action = .deliver w fails ∧
      s.fleet.db.mailboxes.find? a.mailbox.id = some a.mailbox := by
  obtain ⟨u, e, rfl⟩ := Fleet.effect_of_step S.deployment h
  rcases e.stamped_of turn with before | ⟨fails, id, act, _, _, opens⟩
  · exact .inl before
  · cases opens with
    | stamped row =>
        have found := (deliveryRow_eq_some.mp row).2.1
        exact .inr ⟨fails, act, by rwa [← Table.key_of_find? found] at found⟩

/-- The attempt that a delivery has opened knows the mailbox as it is stored. -/
theorem read_of_opened {l : Label} {w : String} {fails : Bool} {fleet : Fleet} {a : Attempt}
    {store : Database} {rest : List Nat} (h : s.fleet.step S.deployment l = some fleet)
    (act : l.action = .deliver w fails) (turn : (fleet.workers w).phase = .stamped a store rest) :
    s.fleet.db.mailboxes.find? a.mailbox.id = some a.mailbox := by
  rcases stamped_before h turn with before | ⟨_, _, read⟩
  · obtain ⟨_, advanced, _⟩ := Option.map_eq_some_iff.mp h
    rw [act] at advanced
    cases Fleet.acts_of_advance S.deployment advanced with
    | deliver serving =>
        rw [congrArg Process.phase serving] at before
        cases before
  · exact read

/-- A step that concerns no adapter. -/
theorem Sound.aside (sound : s.Sound S) {l : Label} {fleet : Fleet}
    (h : s.fleet.step S.deployment l = some fleet)
    (before : ∀ w a store rest, (fleet.workers w).phase = .stamped a store rest →
      (s.fleet.workers w).phase = .stamped a store rest) :
    ({ s with fleet := fleet } : Service).Sound S :=
  .work h rfl (fun w id k found => ⟨k, sound.cached w id k found, rfl, rfl⟩)
    (fun w a store rest k turn found => sound.stamped w a store rest k (before w a store rest turn)
      found) sound.logins

theorem Sound.start (sound : s.Sound S) {l : Label} {fleet : Fleet}
    (h : s.fleet.step S.deployment l = some fleet)
    (before : ∀ w a store rest, (fleet.workers w).phase = .stamped a store rest →
      (s.fleet.workers w).phase = .stamped a store rest) (w : String) :
    ({ s with fleet := fleet, adapters := Function.update s.adapters w Table.empty } :
      Service).Sound S := by
  have old : ∀ w' id k, (Function.update s.adapters w Table.empty w').get? id = some k →
      (s.adapters w').get? id = some k := by
    intro w' id k found
    by_cases here : w' = w
    · subst here
      rw [Function.update_self] at found
      cases found
    · rwa [Function.update_of_ne here] at found
  refine .work h rfl (fun w' id k found => ⟨k, sound.cached w' id k (old w' id k found), rfl, rfl⟩)
    (fun w' a store rest k turn found => ?_) sound.logins
  exact sound.stamped w' a store rest k (before w' a store rest turn) (old w' _ k found)

theorem Sound.opened (sound : s.Sound S) {l : Label} {w : String} {fails : Bool} {fleet : Fleet}
    (h : s.fleet.step S.deployment l = some fleet) (act : l.action = .deliver w fails)
    (follow : s.opened S w fleet = some t) : t.Sound S := by
  have before : ∀ w' a store rest, w' ≠ w → (fleet.workers w').phase = .stamped a store rest →
      (s.fleet.workers w').phase = .stamped a store rest := by
    intro w' a store rest ne turn
    rcases stamped_before h turn with before | ⟨fails', other, _⟩
    · exact before
    · rw [act] at other
      cases other
      exact absurd rfl ne
  unfold Service.opened at follow
  split at follow
  · rename_i a store rest turn
    obtain ⟨cache, made, rfl⟩ := Option.map_eq_some_iff.mp follow
    have read := read_of_opened h act turn
    have current := current_adapterFor (sound.cached w) read made
    have each : ∀ w' id k, (Function.update s.adapters w cache w').get? id = some k →
        s.Current S id k := by
      intro w' id k found
      by_cases here : w' = w
      · subst here
        rw [Function.update_self] at found
        exact current id k found
      · rw [Function.update_of_ne here] at found
        exact sound.cached w' id k found
    refine .work h rfl (fun w' id k found => ⟨k, each w' id k found, rfl, rfl⟩)
      (fun w' a' store' rest' k turn' found => ?_) sound.logins
    by_cases here : w' = w
    · subst here
      rw [turn] at turn'
      cases turn'
      intro unrotated
      dsimp only at unrotated
      rw [Function.update_self] at unrotated
      obtain ⟨m, found', password⟩ := (each w' _ k found).2 unrotated
      obtain rfl := Option.some.inj (read.symm.trans found')
      exact password
    · intro unrotated
      dsimp only at found unrotated
      rw [Function.update_of_ne here] at found unrotated
      exact sound.stamped w' a' store' rest' k (before w' a' store' rest' here turn') found
        unrotated
  · rename_i unstamped
    cases follow
    refine sound.aside h fun w' a store rest turn => ?_
    by_cases here : w' = w
    · subst here
      exact absurd turn (unstamped a store rest)
    · exact before w' a store rest here turn

/-- A call of the adapter: its password stays, and what it logs in with is fresh. -/
theorem Sound.spoken (sound : s.Sound S) {l : Label} {fleet : Fleet} {w : String} {a : Attempt}
    {store : Database} {rest : List Nat} {k : CachedAdapter} {c : Conversation}
    (h : s.fleet.step S.deployment l = some fleet) (act : l.action = .send w)
    (turn : (s.fleet.workers w).phase = .stamped a store rest)
    (cached : (s.adapters w).get? a.mailbox.id = some k)
    (fresh : (k.adapter.login? c).isSome = true → k.builtAfter = s.readAfter w) :
    ({ s.speak w a k c with fleet := fleet } : Service).Sound S := by
  have before : ∀ w' a' store' rest', (fleet.workers w').phase = .stamped a' store' rest' →
      (s.fleet.workers w').phase = .stamped a' store' rest' := by
    intro w' a' store' rest' turn'
    rcases stamped_before h turn' with before | ⟨_, other, _⟩
    · exact before
    · rw [act] at other
      cases other
  have each : ∀ w' id k', ((s.speak w a k c).adapters w').get? id = some k' →
      ∃ k₀, (s.adapters w').get? id = some k₀ ∧ CachedAdapter.Like k₀ k' := by
    intro w' id k' found
    dsimp only [speak] at found
    by_cases here : w' = w
    · subst here
      rw [Function.update_self, Dict.get?_set] at found
      split at found
      · rename_i same
        subst same
        cases found
        exact ⟨k, cached, rfl, k.adapter.send_password _ _ c⟩
      · exact ⟨k', found, rfl, rfl⟩
    · rw [Function.update_of_ne here] at found
      exact ⟨k', found, rfl, rfl⟩
  refine .work h rfl (fun w' id k' found => ?_) (fun w' a' store' rest' k' turn' found => ?_)
    fun login mem => ?_
  · obtain ⟨k₀, found₀, like⟩ := each w' id k' found
    exact ⟨k₀, sound.cached w' id k₀ found₀, like⟩
  · obtain ⟨k₀, found₀, built, password⟩ := each w' _ k' found
    intro unrotated
    rw [password]
    exact sound.stamped w' a' store' rest' k₀ (before w' a' store' rest' turn') found₀
      (built.symm.trans unrotated)
  · dsimp only [speak] at mem
    split at mem
    · rename_i username password performed
      rcases List.mem_append.mp mem with old | new
      · exact sound.logins login old
      · obtain rfl := List.mem_singleton.mp new
        cases k.adapter.login?_eq_some performed
        exact sound.stamped w a store rest k turn cached
          (fresh (Option.isSome_iff_exists.mpr ⟨_, performed⟩))
    · exact sound.logins login mem

theorem sound_of_follow {l : Label} {c : Option Conversation} {fleet : Fleet}
    (sound : s.Sound S) (h : s.fleet.step S.deployment l = some fleet)
    (fresh : s.Fresh (.work l c)) (follow : s.follow S c fleet l.action = some t) :
    t.Sound S := by
  have before : (∀ w fails, l.action ≠ .deliver w fails) → ∀ w a store rest,
      (fleet.workers w).phase = .stamped a store rest →
        (s.fleet.workers w).phase = .stamped a store rest := by
    intro other w a store rest turn
    rcases stamped_before h turn with before | ⟨fails, act, _⟩
    · exact before
    · exact absurd act (other w fails)
  obtain ⟨wait, lapse, act⟩ := l
  dsimp only at follow before
  unfold Service.follow at follow
  split at follow
  · rename_i w
    cases follow
    exact sound.start h (before fun _ _ act => by cases act) w
  · split at follow
    · exact sound.opened h rfl follow
    · cases follow
  · rename_i w
    split at follow
    · rename_i a store rest c turn
      split at follow
      · rename_i k cached
        cases follow
        refine sound.spoken h rfl turn cached fun performed => ?_
        simpa [Fresh, outdated, turn, cached, performed] using fresh
      · cases follow
    · cases follow
      exact sound.aside h (before fun _ _ act => by cases act)
  · rename_i other _
    cases follow
    exact sound.aside h (before fun w fails act => other w fails act)

theorem find?_setPassword_ne (db : Database) {id other : Nat} (ne : other ≠ id)
    (passwordEncrypted : String) :
    (db.setPassword id passwordEncrypted).mailboxes.find? other = db.mailboxes.find? other :=
  (Table.find?_modify db.mailboxes id (fun m => { m with passwordEncrypted := passwordEncrypted })
    (fun _ => rfl) other).trans (if_neg ne)

/-- A rotation that fails leaves the database as it was. One that does not makes every
adapter of its mailbox an old one, and touches no other mailbox. -/
inductive Rotates (s t : Service) : Prop
  | failed (db : t.fleet.db = s.fleet.db) (rotations : t.rotations = s.rotations)
  | done (id : Nat) (rotations : t.rotations = id :: s.rotations)
      (others : ∀ other, other ≠ id →
        t.fleet.db.mailboxes.find? other = s.fleet.db.mailboxes.find? other)

theorem rotates_of_step {address : String} {draw : PasswordDraw} {update : Line}
    (h : s.step S (.rotate address draw update) = some t) :
    Rotates s t ∧ t.fleet.workers = s.fleet.workers ∧ t.adapters = s.adapters ∧
      t.readAfter = s.readAfter ∧ t.logins = s.logins := by
  simp only [step, Option.some.injEq, sessionScope_rotate] at h
  subst h
  refine ⟨?_, rfl, rfl, rfl, rfl⟩
  cases looked : scalarOneOrNone (s.fleet.db.mailboxesNamed address) with
  | error e => exact .failed rfl rfl
  | ok found =>
      cases found with
      | none => exact .failed rfl rfl
      | some mailbox =>
          have named := scalarOneOrNone_some.mp looked
          dsimp only
          split
          · exact .failed rfl rfl
          · refine .done mailbox.id ?_ fun other ne => ?_
            · simp only [named, List.map_cons, List.map_nil, List.singleton_append]
            · exact find?_setPassword_ne s.fleet.db ne _

theorem Sound.rotate (sound : s.Sound S) {address : String} {draw : PasswordDraw} {update : Line}
    (h : s.step S (.rotate address draw update) = some t) : t.Sound S := by
  obtain ⟨rotates, workers, adapters, readAfter, logins⟩ := rotates_of_step h
  refine ⟨fun w id k found => ?_, fun w a store rest k turn found => ?_, ?_⟩
  · rw [adapters] at found
    obtain ⟨built, last⟩ := sound.cached w id k found
    unfold Current rotated at *
    cases rotates with
    | failed db rotations =>
        rw [db, rotations]
        exact ⟨built, last⟩
    | done id' rotations others =>
        rw [rotations]
        by_cases here : id' = id
        · subst here
          rw [List.count_cons_self]
          exact ⟨Nat.le_succ_of_le built, fun same =>
            absurd same (Nat.ne_of_lt (Nat.lt_succ_of_le built))⟩
        · rw [List.count_cons_of_ne here, others id (Ne.symm here)]
          exact ⟨built, last⟩
  · rw [workers] at turn
    rw [adapters] at found
    intro unrotated
    rw [readAfter] at unrotated
    exact sound.stamped w a store rest k turn found unrotated
  · rw [logins]
    exact sound.logins

theorem step_sound {act : Action} (sound : s.Sound S) (fresh : s.Fresh act)
    (h : s.step S act = some t) : t.Sound S := by
  cases act with
  | work l c =>
      obtain ⟨fleet, stepped, follow⟩ := Option.bind_eq_some_iff.mp h
      exact sound_of_follow sound stepped fresh follow
  | rotate address draw update => exact sound.rotate h

/-- In a run in which no mailbox is rotated between the making of an adapter and a
delivery that it logs in for, every login uses the password that the delivery's first
transaction has read. -/
theorem logins_agree (S : Setup) {s t : Service} (start : s.Initial)
    (run : Reaches (step S) Fresh s t) : ∀ l ∈ t.logins, l.Agrees S.installation.cipher :=
  (run.invariant (start.sound S) fun _ _ _ fresh h sound => step_sound sound fresh h).logins

end Service

/-! One worker delivers two letters, and the password is rotated before the first or
between them. -/
namespace Sample
open Service

def setup : Setup where
  deployment := deployment
  installation := installation
  workerHoldsKey := true
  fallback := ⟨100, 100, 1000000⟩

/-- The only mailbox, with its account at the provider. -/
def service : Service where
  fleet := fleet { mailbox with passwordEncrypted := cipher.encrypt 0 "first" }
  accounts := Dict.ofList [(("shop.example", "noreply"), ⟨"first", 1024, 9600⟩)]
  adapters _ := Table.empty
  rotations := []
  readAfter _ := 0
  logins := []

theorem service_initial : service.Initial := ⟨fleet_initial _, fun _ => rfl, rfl, rfl⟩

/-- The server takes the letter, on a new connection or on the one that is there. -/
def talk (connected : Bool) : Option Conversation :=
  some ⟨connected, .greeted "MAILMAX=100" none, .returned Table.empty "OK"⟩

/-- Worker A delivers the letter with the given id. -/
def deliverLetter (id : Nat) (recipient : String) (connected : Bool) : List Service.Action :=
  [.work (accept mailbox id recipient []) none, .work (claimBy "A" [id]) none,
    .work (now (.deliver "A" false)) none, .work (now (.send "A")) (talk connected),
    .work (recordBy "A" (accepted [recipient])) none]

def startA : Service.Action := .work (now (.start "A")) none
def rotateNoreply : Service.Action := .rotate "noreply@shop.example" passwordTwo lineAnswered

/-- The connection of the first letter is gone when the second is sent. -/
def rotatedBetween : List Service.Action :=
  startA :: deliverLetter 1 "ann@example.net" false ++ rotateNoreply ::
    deliverLetter 2 "bob@example.net" false

def rotatedBefore : List Service.Action :=
  rotateNoreply :: startA :: deliverLetter 1 "ann@example.net" false ++
    deliverLetter 2 "bob@example.net" false

/-- What a run is inspected for: whether each login agrees. -/
def agreements (s : Service) : List Bool := s.logins.map fun l => decide (l.Agrees cipher)

end Sample

/-- The worker logs in with the password that was replaced. -/
theorem stale_login :
    Sample.service.Initial ∧
      Reaches (Service.step Sample.setup) Any Sample.service
        (final (Service.step Sample.setup) Sample.service Sample.rotatedBetween) ∧
      ¬ ∀ l ∈ (final (Service.step Sample.setup) Sample.service Sample.rotatedBetween).logins,
        l.Agrees Sample.setup.installation.cipher := by
  obtain ⟨run, views⟩ := reaches_final
    Sample.agreements (show (execute (Service.step Sample.setup) Sample.service
      Sample.rotatedBetween).map Sample.agreements = some [true, false] by decide +kernel)
    fun _ _ _ => trivial
  refine ⟨Sample.service_initial, run, fun all => ?_⟩
  have one : false ∈ [true, false] := by decide
  rw [← views] at one
  obtain ⟨l, mem, differs⟩ := List.mem_map.mp one
  exact of_decide_eq_false differs (all l mem)

/-- Two logins with the password that is stored, the second on a new connection. -/
theorem fresh_logins :
    (∀ l ∈ (final (Service.step Sample.setup) Sample.service Sample.rotatedBefore).logins,
        l.Agrees Sample.setup.installation.cipher) ∧
      (final (Service.step Sample.setup) Sample.service Sample.rotatedBefore).logins.length =
        2 := by
  obtain ⟨run, views⟩ := reaches_of_guarded (fun s : Service => s.logins.length)
    (show (execute (guarded (Service.step Sample.setup) Service.Fresh) Sample.service
      Sample.rotatedBefore).map _ = some 2 by decide +kernel)
  exact ⟨Service.logins_agree Sample.setup Sample.service_initial run, views⟩

end Emaild
