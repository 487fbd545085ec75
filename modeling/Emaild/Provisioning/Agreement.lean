import Emaild.Provisioning
import Emaild.Transition.Reaches

/-!
The stored password of a mailbox and the one the provider holds. The provider is
a dictionary of accounts that requests act on; each attempt of a request may be
lost, may take effect unnoticed, may be refused, or may be answered.
-/
namespace Emaild
open Relational Text Transition

structure Account where
  password : String
  quota : Nat
  limit : Nat
  deriving DecidableEq

def Account.change (a : Account) (changes : Mxroute.AccountChanges) : Account where
  password := changes.password.getD a.password
  quota := changes.quota.getD a.quota
  limit := changes.limit.getD a.limit

/-- By domain and user name. -/
abbrev Accounts := Dict (String × String) Account

def Accounts.password? (accounts : Accounts) (key : String × String) : Option String :=
  (accounts.get? key).map Account.password

/-- The account behind an address. -/
def accountOf (address : String) : String × String :=
  ((partition '@' address).2, (partition '@' address).1)

theorem accountOf_inj {a b : String} (ha : '@' ∈ a.toList) (hb : '@' ∈ b.toList)
    (h : accountOf a = accountOf b) : a = b := by
  refine partition_inj ha hb (Prod.ext ?_ ?_)
  · exact congrArg Prod.snd h
  · exact congrArg Prod.fst h

namespace Mxroute

/-- What a request does to the accounts, if they are such that it can. -/
def Request.applied? : Request → Accounts → Option Accounts
  | .createEmailAccount domain username password quota limit, accounts =>
      if (accounts.get? (domain, username)).isNone then
        some (Dict.set accounts (domain, username) ⟨password, quota, limit⟩)
      else none
  | .updateEmailAccount domain username changes, accounts =>
      (accounts.get? (domain, username)).map fun account =>
        Dict.set accounts (domain, username) (account.change changes)
  | _, accounts => some accounts

/-- An error answer. It has a body. -/
structure Refusal where
  response : Response
  hasBody : (match response.body with | .empty => false | _ => true) = true := by decide
  hasContent : response.status ≠ 204 := by decide
  isError : 400 ≤ response.status ∨ (match response.body with
    | .json payload => Decoding.refused payload
    | _ => false) = true := by decide

/-- An answer that says that the request has been carried out. -/
structure Confirmation where
  response : Response
  succeeds : 200 ≤ response.status ∧ response.status < 300 := by decide
  agrees : (match response.body with
    | .empty => true
    | .notJson _ | .tooDeep => false
    | .json payload => !Decoding.refused payload) = true := by decide
  readable : (match response.logBudget with
    | .ok _ => true
    | .error _ => false) = true := by decide

/-- What becomes of one attempt. -/
inductive Exchange
  /-- It does not reach the provider. -/
  | lost (failure : TransportFailure)
  /-- It takes effect, and the answer does not arrive. -/
  | unanswered (failure : TransportFailure)
  /-- The provider declines, 409 and 429 included. -/
  | declined (refusal : Refusal)
  /-- The provider does what it is asked, or says that it cannot. -/
  | answered (confirmation : Confirmation) (refusal : Refusal)

namespace Exchange

def perform (r : Request) (accounts : Accounts) :
    Exchange → Except TransportFailure Response × Accounts
  | lost failure => (.error failure, accounts)
  | unanswered failure => (.error failure, (r.applied? accounts).getD accounts)
  | declined refusal => (.ok refusal.response, accounts)
  | answered confirmation refusal =>
      match r.applied? accounts with
      | some accounts => (.ok confirmation.response, accounts)
      | none => (.ok refusal.response, accounts)

def isUnanswered : Exchange → Bool
  | unanswered _ => true
  | lost _ | declined _ | answered .. => false

def isAnswered : Exchange → Bool
  | answered .. => true
  | lost _ | unanswered _ | declined _ => false

/-- Another attempt follows this one, if one is left. -/
def passes (d : Decoding) : Exchange → Bool
  | lost _ | unanswered _ => true
  | declined refusal => refusal.response.status = 429 && (d.retryDelay refusal.response).isSome
  | answered .. => false

end Exchange

/-- What becomes of each attempt of a request. -/
abbrev Line := Nat → Exchange

/-- The attempts that are made. -/
def reached (d : Decoding) : List Exchange → List Exchange
  | [] => []
  | e :: rest => if e.passes d then e :: reached d rest else [e]

theorem reached_pass {d : Decoding} {e : Exchange} {rest : List Exchange}
    (h : e.passes d = true) : reached d (e :: rest) = e :: reached d rest := if_pos h

theorem reached_last {d : Decoding} {e : Exchange} {rest : List Exchange}
    (h : e.passes d = false) : reached d (e :: rest) = [e] := if_neg (by simp [h])

def Line.reached (d : Decoding) (line : Line) : List Exchange :=
  Mxroute.reached d ((List.range' 1 Client.maxAttempts).map line)

/-- No attempt takes effect unnoticed, unless a later one is answered. -/
def Line.Confirmed (d : Decoding) (line : Line) : Prop :=
  (line.reached d).any Exchange.isUnanswered = true →
    (line.reached d).any Exchange.isAnswered = true

instance (d : Decoding) (line : Line) : Decidable (line.Confirmed d) :=
  inferInstanceAs (Decidable (_ → _))

/-- The client, where the attempts of the two kinds of request go as given. -/
def Client.over (d : Decoding) (create update : Line) : Client Accounts where
  toDecoding := d
  acquire _ accounts := accounts
  pause _ accounts := accounts
  send r attempt accounts :=
    match r with
    | .createEmailAccount .. => (create attempt).perform r accounts
    | _ => (update attempt).perform r accounts

/-! What answers say, and what a request leaves behind. -/

theorem Decoding.answer_refusal (d : Decoding) (refusal : Refusal) (r : Request) :
    ∃ e, d.answer refusal.response r = .error e := by
  cases answered : d.answer refusal.response r with
  | error e => exact ⟨e, rfl⟩
  | ok value =>
      rcases d.handle_ok (d.handle_of_answer answered)
        with contentless | empty | ⟨payload, body, granted, low⟩
      · exact absurd contentless refusal.hasContent
      · have hasBody := refusal.hasBody
        rw [empty] at hasBody
        cases hasBody
      · have isError := refusal.isError
        rw [body] at isError
        rcases isError with high | refused
        · omega
        · cases granted.symm.trans refused

theorem Decoding.handle_confirmation (d : Decoding) (confirmation : Confirmation) (r : Request) :
    ∃ payload, d.handle confirmation.response r = .ok payload := by
  obtain ⟨⟨status, retryAfter, remaining, body⟩, succeeds, agrees, readable⟩ := confirmation
  dsimp only at succeeds agrees
  unfold Decoding.handle
  dsimp only
  rw [if_neg (by omega), if_neg (by omega), if_neg (by omega), if_neg (by omega)]
  split
  · exact ⟨_, rfl⟩
  · cases body with
    | empty => exact ⟨_, rfl⟩
    | notJson bytes => cases agrees
    | tooDeep => cases agrees
    | json payload =>
        dsimp only at agrees ⊢
        rw [if_neg (by simpa using agrees), if_neg (by omega)]
        split <;> exact ⟨_, rfl⟩

theorem Decoding.answer_confirmation (d : Decoding) (confirmation : Confirmation) (r : Request) :
    ∃ payload, d.answer confirmation.response r = .ok payload := by
  obtain ⟨payload, handled⟩ := d.handle_confirmation confirmation r
  have readable := confirmation.readable
  unfold Decoding.answer
  cases logged : confirmation.response.logBudget with
  | error e =>
      rw [logged] at readable
      cases readable
  | ok u => exact ⟨payload, handled⟩

theorem Confirmation.status_ne (confirmation : Confirmation) :
    confirmation.response.status ≠ 429 := by
  have := confirmation.succeeds
  omega

/-- A request that, where it can be carried out, gives one account a password. -/
def Request.Sets (r : Request) (key : String × String) (password : String) : Prop :=
  ∀ accounts accounts' : Accounts, r.applied? accounts = some accounts' →
    accounts'.password? key = some password ∧
      ∀ other, other ≠ key → accounts'.get? other = accounts.get? other

theorem sets_createEmailAccount (domain username password : String) (quota limit : Nat) :
    (Request.createEmailAccount domain username password quota limit).Sets (domain, username)
      password := by
  intro accounts accounts' applied
  simp only [Request.applied?] at applied
  split at applied
  · cases applied
    refine ⟨?_, fun other ne => ?_⟩
    · simp [Accounts.password?, Dict.get?_set]
    · rw [Dict.get?_set, if_neg ne]
  · cases applied

theorem sets_updateEmailAccount (domain username password : String) :
    (Request.updateEmailAccount domain username { password := some password }).Sets
      (domain, username) password := by
  intro accounts accounts' applied
  obtain ⟨account, _, rfl⟩ := Option.map_eq_some_iff.mp applied
  refine ⟨?_, fun other ne => ?_⟩
  · simp [Accounts.password?, Dict.get?_set, Account.change]
  · rw [Dict.get?_set, if_neg ne]

theorem applied?_updateEmailAccount {domain username : String} (password : String)
    {accounts : Accounts} {old : String}
    (present : accounts.password? (domain, username) = some old) :
    ∃ after, Request.applied? (.updateEmailAccount domain username { password := some password })
        accounts = some after ∧ after.password? (domain, username) = some password := by
  obtain ⟨account, found, _⟩ := Option.map_eq_some_iff.mp present
  have applied : Request.applied? (.updateEmailAccount domain username
      { password := some password }) accounts =
        some (Dict.set accounts (domain, username)
          (account.change { password := some password })) := by
    simp only [Request.applied?, found, Option.map_some]
  exact ⟨_, applied, (sets_updateEmailAccount domain username password _ _ applied).1⟩

section Attempts
variable {d : Decoding} {create update : Line} {r : Request} {key : String × String}
  {password : String}

/-- The line that a request goes over. -/
def Request.over (create update : Line) : Request → Line
  | .createEmailAccount .. => create
  | _ => update

theorem send_over (attempt : Nat) (accounts : Accounts) :
    (Client.over d create update).send r attempt accounts =
      (r.over create update attempt).perform r accounts := by
  cases r <;> rfl

theorem over_acquire (m : Method) (accounts : Accounts) :
    (Client.over d create update).acquire m accounts = accounts := rfl

theorem over_retryDelay (response : Response) :
    (Client.over d create update).retryDelay response = d.retryDelay response := rfl

theorem over_backOff (attempt : Nat) (accounts : Accounts) :
    (Client.over d create update).backOff attempt accounts = accounts := by
  unfold Client.backOff
  split <;> rfl

/-- Whether an attempt is the last depends on its answer alone, except that a
refusal may also be the answer to what cannot be done. -/
theorem attempts_cons (n : Nat) (rest : List Nat) (last : Option MxrouteError)
    (accounts : Accounts) :
    (Client.over d create update).attempts r (n :: rest) last accounts =
      match (r.over create update n).perform r accounts with
      | (.error failure, accounts) =>
          (Client.over d create update).attempts r rest (some (failure.error r)) accounts
      | (.ok response, accounts) =>
          if response.status = 429 then
            if (d.retryDelay response).isSome then
              (Client.over d create update).attempts r rest (some Client.rateLimited) accounts
            else (.error (.builtin "ValueError"), accounts)
          else (d.answer response r, accounts) := by
  rw [Client.attempts, send_over, over_acquire]
  cases (r.over create update n).perform r accounts with
  | mk result after =>
      cases result with
      | error failure =>
          dsimp only
          rw [over_backOff]
      | ok response =>
          dsimp only
          split
          · rw [over_retryDelay]
            cases d.retryDelay response <;> rfl
          · rfl

section Sets
variable (sets : r.Sets key password)
include sets

/-- One attempt touches no other account. -/
theorem perform_frame (e : Exchange) (accounts : Accounts) {other : String × String}
    (ne : other ≠ key) : (e.perform r accounts).2.get? other = accounts.get? other := by
  cases e with
  | lost | declined => rfl
  | unanswered failure =>
      cases applied : r.applied? accounts with
      | none => simp [Exchange.perform, applied]
      | some after => simpa [Exchange.perform, applied] using (sets _ _ applied).2 other ne
  | answered confirmation refusal =>
      cases applied : r.applied? accounts with
      | none => simp [Exchange.perform, applied]
      | some after => simpa [Exchange.perform, applied] using (sets _ _ applied).2 other ne

/-- An answer that is taken for success comes after the request was carried out. -/
theorem perform_handled {e : Exchange} {accounts after : Accounts} {response : Response}
    {value : Json} (done : e.perform r accounts = (.ok response, after))
    (handled : d.answer response r = .ok value) : after.password? key = some password := by
  cases e with
  | lost | unanswered => cases done
  | declined refusal =>
      cases done
      obtain ⟨e, refused⟩ := d.answer_refusal refusal r
      cases refused.symm.trans handled
  | answered confirmation refusal =>
      cases applied : r.applied? accounts with
      | none =>
          simp only [Exchange.perform, applied] at done
          cases done
          obtain ⟨e, refused⟩ := d.answer_refusal refusal r
          cases refused.symm.trans handled
      | some changed =>
          simp only [Exchange.perform, applied] at done
          cases done
          exact (sets _ _ applied).1

variable (d create update) in
/-- The attempts touch no other account, and they succeed only with the password in
place. -/
theorem attempts_sets (attempts : List Nat) (last : Option MxrouteError) (accounts : Accounts) :
    let run := (Client.over d create update).attempts r attempts last accounts
    (∀ other, other ≠ key → run.2.get? other = accounts.get? other) ∧
      (run.1.isOk = true → run.2.password? key = some password) := by
  induction attempts generalizing last accounts with
  | nil => exact ⟨fun _ _ => rfl, fun ok => absurd ok Bool.false_ne_true⟩
  | cons n rest ih =>
      rw [attempts_cons]
      have frame (other : String × String) (ne : other ≠ key) :=
        perform_frame sets (r.over create update n) accounts ne
      cases done : (r.over create update n).perform r accounts with
      | mk result after =>
          rw [done] at frame
          cases result with
          | error failure =>
              exact ⟨fun other ne => ((ih _ after).1 other ne).trans
                (frame other ne), (ih _ after).2⟩
          | ok response =>
              dsimp only
              split_ifs with limited readable
              · exact ⟨fun other ne => ((ih _ after).1 other ne).trans
                  (frame other ne), (ih _ after).2⟩
              · exact ⟨frame, fun ok => absurd ok Bool.false_ne_true⟩
              · refine ⟨frame, fun ok => ?_⟩
                cases handled : d.answer response r with
                | error e =>
                    rw [handled] at ok
                    cases ok
                | ok value => exact perform_handled sets done handled

end Sets

variable (d create update password) in
/-- An update of an account that is there: it succeeds when one of its attempts is
answered, and it leaves the new password behind when one of them takes effect. -/
theorem attempts_update {domain username : String} (attempts : List Nat)
    (last : Option MxrouteError) (accounts : Accounts) {old : String}
    (present : accounts.password? (domain, username) = some old) :
    let run := (Client.over d create update).attempts
      (.updateEmailAccount domain username { password := some password }) attempts last accounts
    let made := reached d (attempts.map update)
    run.1.isOk = made.any Exchange.isAnswered ∧ run.2.password? (domain, username) =
      some (if made.any Exchange.isUnanswered || made.any Exchange.isAnswered then password
        else old) := by
  induction attempts generalizing last accounts old with
  | nil => exact ⟨rfl, present⟩
  | cons n rest ih =>
      obtain ⟨after, applied, changed⟩ := applied?_updateEmailAccount password present
      rw [attempts_cons]
      simp only [Request.over, List.map_cons]
      cases update n with
      | lost failure => exact ih _ accounts present
      | unanswered failure =>
          simp only [Exchange.perform, applied, Option.getD_some]
          obtain ⟨ok, left⟩ := ih (some (failure.error _)) after changed
          refine ⟨ok, ?_⟩
          rw [left, ite_self]
          rfl
      | declined refusal =>
          obtain ⟨e, refused⟩ := d.answer_refusal refusal
            (.updateEmailAccount domain username { password := some password })
          simp only [Exchange.perform]
          by_cases limited : refusal.response.status = 429
          · by_cases readable : (d.retryDelay refusal.response).isSome = true
            · have again : (Exchange.declined refusal).passes d = true := by
                simp [Exchange.passes, limited, readable]
              rw [if_pos limited, if_pos readable, reached_pass again]
              exact ih (some Client.rateLimited) accounts present
            · have last : (Exchange.declined refusal).passes d = false := by
                simp [Exchange.passes, readable]
              rw [if_pos limited, if_neg readable, reached_last last]
              exact ⟨rfl, present⟩
          · have last : (Exchange.declined refusal).passes d = false := by
              simp [Exchange.passes, limited]
            rw [if_neg limited, reached_last last, refused]
            exact ⟨rfl, present⟩
      | answered confirmation refusal =>
          obtain ⟨payload, granted⟩ := d.answer_confirmation confirmation
            (.updateEmailAccount domain username { password := some password })
          simp only [Exchange.perform, applied, if_neg confirmation.status_ne, granted]
          exact ⟨rfl, changed⟩

end Attempts

theorem Client.call_ok {σ : Type} (c : Client σ) (r : Request) (far : σ) :
    c.call r .ok far = c.request r far := by
  unfold Client.call
  cases c.request r far with
  | mk result far => cases result <;> rfl

theorem Client.updateEmailAccount_password {σ : Type} (c : Client σ)
    (domain username password : String) (far : σ) :
    c.updateEmailAccount domain username { password := some password } far =
      c.request (.updateEmailAccount domain username { password := some password }) far := by
  unfold Client.updateEmailAccount
  rw [if_neg (by simp), Client.call_ok]

end Mxroute

open Mxroute

/-- Creation, or adoption after a conflict, touches no other account, and succeeds
only with the password in place. -/
theorem createOrAdopt_sets (d : Decoding) (create adopt : Line)
    (domain username password : String) (quotaMb : Nat) (accounts : Accounts) :
    let run := createOrAdopt (Client.over d create adopt) domain username password quotaMb accounts
    (∀ other, other ≠ (domain, username) → run.2.get? other = accounts.get? other) ∧
      (run.1.isOk = true → run.2.password? (domain, username) = some password) := by
  have first := attempts_sets d create adopt
    (sets_createEmailAccount domain username password quotaMb providerDailyLimit)
    (List.range' 1 Client.maxAttempts) none accounts
  unfold createOrAdopt Client.createEmailAccount
  rw [Client.call_ok, Client.request]
  generalize (Client.over d create adopt).attempts _ _ none accounts = run at first ⊢
  obtain ⟨result, after⟩ := run
  dsimp only
  split
  · rename_i message far conflict
    cases conflict
    rw [Client.updateEmailAccount_password]
    obtain ⟨frame, ok⟩ := attempts_sets d create adopt
      (sets_updateEmailAccount domain username password)
      (List.range' 1 Client.maxAttempts) none after
    exact ⟨fun other ne => (frame other ne).trans (first.1 other ne), ok⟩
  · exact first

/-- What the commands of the administration run with. -/
structure Installation where
  rt : Runtime
  cipher : MailboxCipher
  decoding : Decoding

/-- One call, with what it draws and what becomes of its requests. -/
inductive AdminCall
  | provision (request : ProvisionRequest) (id : Nat) (draw : PasswordDraw) (create adopt : Line)
  | rotate (address : String) (draw : PasswordDraw) (update : Line)

/-- The call in a session of its own. -/
def AdminCall.run (I : Installation) (w : World Accounts) : AdminCall → World Accounts
  | provision request id draw create adopt =>
      (sessionScope (provisionMailbox (Client.over I.decoding create adopt) I.rt I.cipher request id
        draw fun _ db => db) w).2
  | rotate address draw update =>
      (sessionScope (rotateMailboxPassword (Client.over I.decoding update update) I.cipher address
        draw) w).2

/-- The stored password is the one that the provider holds. -/
def Mailbox.Agrees (cipher : MailboxCipher) (accounts : Accounts) (m : Mailbox) : Prop :=
  (accounts.password? (accountOf m.address)).isSome ∧
    cipher.decrypt m.passwordEncrypted = accounts.password? (accountOf m.address)

instance (cipher : MailboxCipher) (accounts : Accounts) (m : Mailbox) :
    Decidable (m.Agrees cipher accounts) := inferInstanceAs (Decidable (_ ∧ _))

namespace World
variable (I : Installation)

def PasswordsAgree (w : World Accounts) : Prop :=
  ∀ m ∈ w.db.mailboxes.rows, m.Agrees I.cipher w.far

instance (w : World Accounts) : Decidable (w.PasswordsAgree I) :=
  inferInstanceAs (Decidable (∀ m ∈ w.db.mailboxes.rows, _))

/-- Mailboxes are told apart by their addresses, which have two parts, and both ends
agree about each of them. -/
structure Sound (w : World Accounts) : Prop where
  addressed : ∀ m ∈ w.db.mailboxes, '@' ∈ m.address.toList
  distinct : ∀ m ∈ w.db.mailboxes, ∀ m' ∈ w.db.mailboxes, m.address = m'.address → m = m'
  agree : w.PasswordsAgree I

end World

/-- In a rotation of a mailbox that is there, no attempt takes effect unnoticed
without a later one being answered, or the password drawn is the old one. -/
def AdminCall.Settled (I : Installation) (w : World Accounts) : AdminCall → Prop
  | provision .. => True
  | rotate address draw update => ∀ m ∈ w.db.mailboxes.rows, m.address = address →
      update.Confirmed I.decoding ∨
        I.cipher.decrypt m.passwordEncrypted = some draw.password.text

instance (I : Installation) (w : World Accounts) (call : AdminCall) :
    Decidable (call.Settled I w) :=
  match call with
  | .provision .. => isTrue trivial
  | .rotate .. => inferInstanceAs (Decidable (∀ m ∈ w.db.mailboxes.rows, _))

/-! One call. -/

section Calls
variable {I : Installation} {w : World Accounts}

/-- An address is carried by one mailbox at most. -/
theorem World.Sound.named (sound : w.Sound I) (address : String) :
    w.db.mailboxesNamed address = [] ∨ ∃ m ∈ w.db.mailboxes, m.address = address ∧
      w.db.mailboxesNamed address = [m] := by
  by_cases tracked : ∃ m ∈ w.db.mailboxes, m.address = address
  · obtain ⟨m, mem, rfl⟩ := tracked
    refine .inr ⟨m, mem, rfl, Table.filter_eq_singleton.mpr ⟨⟨mem, ?_⟩, fun m' mem' same => ?_⟩⟩
    · simp [Mailbox.named]
    · exact sound.distinct m' mem' m mem (by simpa [Mailbox.named] using same)
  · refine .inl (List.filter_eq_nil_iff.mpr fun m mem same => tracked ⟨m, mem, ?_⟩)
    simpa [Mailbox.named] using same

/-- Another mailbox has another account. -/
theorem World.Sound.account_ne (sound : w.Sound I) {m m' : Mailbox} (mem : m ∈ w.db.mailboxes)
    (mem' : m' ∈ w.db.mailboxes) (ne : m' ≠ m) : accountOf m'.address ≠ accountOf m.address :=
  fun same => ne (sound.distinct m' mem' m mem
    (accountOf_inj (sound.addressed m' mem') (sound.addressed m mem) same))

theorem password?_congr {accounts accounts' : Accounts} {key : String × String}
    (same : accounts'.get? key = accounts.get? key) :
    accounts'.password? key = accounts.password? key := congrArg _ same

/-- The request of a rotation: whether it is confirmed, and what it leaves behind. -/
theorem rotation_request (update : Line) {address old : String} (password : String)
    {accounts : Accounts} (present : accounts.password? (accountOf address) = some old) :
    let run := (Client.over I.decoding update update).updateEmailAccount (partition '@' address).2
      (partition '@' address).1 { password := some password } accounts
    let made := update.reached I.decoding
    run.1.isOk = made.any Exchange.isAnswered ∧
      run.2.password? (accountOf address) =
        some (if made.any Exchange.isUnanswered || made.any Exchange.isAnswered then password
          else old) ∧
      ∀ other, other ≠ accountOf address → run.2.get? other = accounts.get? other := by
  intro run made
  obtain ⟨ok, left⟩ := attempts_update I.decoding update update password
    (List.range' 1 Client.maxAttempts) none accounts present
  obtain ⟨frame, -⟩ := attempts_sets I.decoding update update
    (sets_updateEmailAccount (partition '@' address).2 (partition '@' address).1 password)
    (List.range' 1 Client.maxAttempts) none accounts
  have asked : run = _ := Client.updateEmailAccount_password ..
  rw [asked]
  exact ⟨ok, left, frame⟩

theorem mem_setPassword {db : Database} {m : Mailbox} (mem : m ∈ db.mailboxes)
    (passwordEncrypted : String) (m' : Mailbox) :
    m' ∈ (db.setPassword m.id passwordEncrypted).mailboxes ↔
      m' = { m with passwordEncrypted := passwordEncrypted } ∨ (m' ∈ db.mailboxes ∧ m' ≠ m) := by
  have changed := Table.mem_modify db.mailboxes m.id
    (fun m => { m with passwordEncrypted := passwordEncrypted }) (fun _ => rfl) (b := m')
  refine changed.trans ⟨?_, ?_⟩
  · rintro ⟨other, listed, rfl⟩
    by_cases same : other.id = m.id
    · obtain rfl := Table.eq_of_key_eq listed mem same
      exact .inl (if_pos rfl)
    · rw [if_neg same]
      exact .inr ⟨listed, fun eq => same (congrArg Mailbox.id eq)⟩
  · rintro (rfl | ⟨listed, ne⟩)
    · exact ⟨m, mem, if_pos rfl⟩
    · exact ⟨m', listed, if_neg fun same => ne (Table.eq_of_key_eq listed mem same)⟩

/-- Mailboxes whose accounts are as they were agree as they did. -/
theorem agrees_congr {accounts accounts' : Accounts} {m : Mailbox} {cipher : MailboxCipher}
    (same : accounts'.get? (accountOf m.address) = accounts.get? (accountOf m.address)) :
    m.Agrees cipher accounts' ↔ m.Agrees cipher accounts := by
  unfold Mailbox.Agrees
  rw [password?_congr same]

/-- A rotation leaves the ends in agreement exactly when it is settled. -/
theorem rotate_agrees_iff (sound : w.Sound I) (address : String) (draw : PasswordDraw)
    (update : Line) :
    ((AdminCall.rotate address draw update).run I w).PasswordsAgree I ↔
      (AdminCall.rotate address draw update).Settled I w := by
  simp only [AdminCall.run, sessionScope_rotate, AdminCall.Settled]
  rcases sound.named address with untracked | ⟨m, mem, rfl, named⟩
  · have unnamed : ∀ m ∈ w.db.mailboxes.rows, m.address ≠ address := fun m mem same =>
      List.filter_eq_nil_iff.mp untracked m mem (by simpa [Mailbox.named] using same)
    simp only [untracked, scalarOneOrNone]
    exact ⟨fun _ m mem same => absurd same (unnamed m mem), fun _ => sound.agree⟩
  · have only : ∀ m' ∈ w.db.mailboxes.rows, m'.address = m.address → m' = m :=
      fun m' mem' => sound.distinct m' mem' m mem
    obtain ⟨held, stored⟩ := sound.agree m mem
    obtain ⟨old, present⟩ := Option.isSome_iff_exists.mp held
    obtain ⟨ok, left, frame⟩ := rotation_request (I := I) update draw.password.text present
    have others : ∀ m' ∈ w.db.mailboxes, m' ≠ m → m'.Agrees I.cipher
        ((Client.over I.decoding update update).updateEmailAccount (partition '@' m.address).2
          (partition '@' m.address).1 { password := some draw.password.text } w.far).2 :=
      fun m' mem' ne => (agrees_congr (frame _ (sound.account_ne mem mem' ne))).mpr
        (sound.agree m' mem')
    simp only [named, scalarOneOrNone]
    generalize (Client.over I.decoding update update).updateEmailAccount (partition '@' m.address).2
      (partition '@' m.address).1 { password := some draw.password.text } w.far = run
      at ok left others
    obtain ⟨result, far⟩ := run
    cases result with
    | error e =>
        have missed : (update.reached I.decoding).any Exchange.isAnswered = false := ok.symm
        rw [missed, Bool.or_false] at left
        constructor
        · intro agree m' mem' same
          obtain rfl := only m' mem' same
          have both : I.cipher.decrypt m'.passwordEncrypted = _ := (agree m' mem).2.trans left
          split at both
          · exact .inr both
          · rename_i unnoticed
            exact .inl fun effect => absurd effect unnoticed
        · intro settled m' mem'
          by_cases here : m' = m
          · subst here
            refine ⟨Option.isSome_iff_exists.mpr ⟨_, left⟩, stored.trans (present.trans ?_)⟩
            rw [left]
            rcases settled m' mem rfl with confirmed | same
            · split
              · rename_i effect
                exact absurd (confirmed effect) (by simp [missed])
              · rfl
            · rw [Option.some.inj (present.symm.trans (stored.symm.trans same)), ite_self]
          · exact others m' mem' here
    | ok answer =>
        have answered : (update.reached I.decoding).any Exchange.isAnswered = true := ok.symm
        rw [answered, Bool.or_true, if_pos rfl] at left
        refine ⟨fun _ _ _ _ => .inl fun _ => answered, fun _ m' mem' => ?_⟩
        rcases (mem_setPassword mem _ m').mp mem' with rfl | ⟨listed, ne⟩
        · refine ⟨Option.isSome_iff_exists.mpr ⟨_, left⟩, ?_⟩
          exact (I.cipher.decrypt_encrypt ..).trans left.symm
        · exact others m' listed ne

/-- A rotation leaves the addresses as they are. -/
theorem rotate_addresses (sound : w.Sound I) (address : String) (draw : PasswordDraw)
    (update : Line) :
    let after := (AdminCall.rotate address draw update).run I w
    (∀ m ∈ after.db.mailboxes, '@' ∈ m.address.toList) ∧
      ∀ m ∈ after.db.mailboxes, ∀ m' ∈ after.db.mailboxes, m.address = m'.address → m = m' := by
  have unchanged := And.intro sound.addressed sound.distinct
  simp only [AdminCall.run, sessionScope_rotate]
  rcases sound.named address with untracked | ⟨m, mem, rfl, named⟩
  · simpa only [untracked, scalarOneOrNone] using unchanged
  · simp only [named, scalarOneOrNone]
    split
    · exact unchanged
    · constructor
      · intro m₁ mem₁
        rcases (mem_setPassword mem _ m₁).mp mem₁ with rfl | ⟨listed, -⟩
        · exact sound.addressed m mem
        · exact sound.addressed m₁ listed
      · intro m₁ mem₁ m₂ mem₂ same
        rcases (mem_setPassword mem _ m₁).mp mem₁ with rfl | ⟨listed₁, ne₁⟩ <;>
          rcases (mem_setPassword mem _ m₂).mp mem₂ with rfl | ⟨listed₂, ne₂⟩
        · rfl
        · exact absurd (sound.distinct m₂ listed₂ m mem same.symm) ne₂
        · exact absurd (sound.distinct m₁ listed₁ m mem same) ne₁
        · exact sound.distinct m₁ listed₁ m₂ listed₂ same

theorem splitAddress_ok {rt : Runtime} {raw address localPart domainName : String}
    (h : splitAddress rt raw = .ok (address, localPart, domainName)) :
    '@' ∈ address.toList ∧ accountOf address = (domainName, localPart) := by
  unfold splitAddress at h
  dsimp only at h
  split at h
  · rename_i occurs
    split at h
    · cases h
    · cases h
      exact ⟨occurs, rfl⟩
  · cases h

theorem unnamed_of_nil {db : Database} {address : String} (h : db.mailboxesNamed address = []) :
    ∀ m ∈ db.mailboxes, m.address ≠ address := fun m mem same =>
  List.filter_eq_nil_iff.mp h m mem (by simpa [Mailbox.named] using same)

theorem unnamed_of_check {db : Database} {address : String}
    (h : checkNotProvisioned db address = .ok ⟨⟩) : db.mailboxesNamed address = [] := by
  unfold checkNotProvisioned at h
  obtain ⟨found, looked, rest⟩ := ok_of_bind_ok h
  cases found with
  | none => exact scalarOneOrNone_none.mp looked
  | some m => cases rest

/-- Accounts change only where no mailbox is. -/
theorem World.Sound.elsewhere (sound : w.Sound I) {address : String} (two : '@' ∈ address.toList)
    (unnamed : ∀ m ∈ w.db.mailboxes, m.address ≠ address) {accounts : Accounts}
    (frame : ∀ other, other ≠ accountOf address → accounts.get? other = w.far.get? other) :
    ∀ m ∈ w.db.mailboxes, m.Agrees I.cipher accounts := fun m mem =>
  (agrees_congr (frame _ fun same =>
    unnamed m mem (accountOf_inj (sound.addressed m mem) two same))).mpr (sound.agree m mem)

theorem provision_sound (sound : w.Sound I) (request : ProvisionRequest) (id : Nat)
    (draw : PasswordDraw) (create adopt : Line) :
    ((AdminCall.provision request id draw create adopt).run I w).Sound I := by
  simp only [AdminCall.run]
  have ends := provisionMailbox_cases (Client.over I.decoding create adopt) I.rt I.cipher request id
    draw (fun _ db => db) w
  generalize sessionScope (provisionMailbox (Client.over I.decoding create adopt) I.rt I.cipher
    request id draw fun _ db => db) w = run at ends ⊢
  cases ends with
  | refused n => rwa [afterOthers_alone]
  | @failed e target n checked =>
      obtain ⟨two, account⟩ := splitAddress_ok checked.split
      have set := createOrAdopt_sets I.decoding create adopt target.domainName target.localPart
        draw.password.text request.quotaMb w.far
      rw [← account] at set
      rw [afterOthers_alone]
      exact ⟨sound.addressed, sound.distinct,
        sound.elsewhere two (unnamed_of_nil (unnamed_of_check checked.new)) set.1⟩
  | @done answer target db far checked created inserted =>
      obtain ⟨two, account⟩ := splitAddress_ok checked.split
      have set := createOrAdopt_sets I.decoding create adopt target.domainName target.localPart
        draw.password.text request.quotaMb w.far
      rw [← account, created] at set
      rw [afterOthers_alone] at inserted
      obtain ⟨unnamed, mailboxes, insert, same⟩ := insertMailbox_ok inserted
      obtain ⟨free, rfl⟩ := Table.insert?_eq_some.mp insert
      have elsewhere := sound.elsewhere two (unnamed_of_nil unnamed) set.1
      have listed : ∀ m, m ∈ (db.promote target.domain).mailboxes ↔ m ∈ w.db.mailboxes ∨
          m = newMailbox I.cipher id draw target.domain target.address request.displayName := by
        intro m
        rw [promote_mailboxes, same]
        exact Table.mem_insert_iff _ _ free _
      refine ⟨fun m mem => ?_, fun m mem m' mem' same => ?_, fun m mem => ?_⟩
      · rcases (listed m).mp mem with old | rfl
        · exact sound.addressed m old
        · exact two
      · rcases (listed m).mp mem with old | rfl <;> rcases (listed m').mp mem' with old' | rfl
        · exact sound.distinct m old m' old' same
        · exact absurd same (unnamed_of_nil unnamed m old)
        · exact absurd same.symm (unnamed_of_nil unnamed m' old')
        · rfl
      · rcases (listed m).mp mem with old | rfl
        · exact elsewhere m old
        · have held := set.2 rfl
          exact ⟨Option.isSome_iff_exists.mpr ⟨_, held⟩,
            (I.cipher.decrypt_encrypt ..).trans held.symm⟩

end Calls

/-! Every run. -/

/-- One call after the other. -/
def AdminCall.step (I : Installation) (w : World Accounts) (call : AdminCall) :
    Option (World Accounts) := some (call.run I w)

/-- The call, returned or raised, leaves both ends in agreement. -/
def AdminCall.Agrees (I : Installation) (w : World Accounts) (call : AdminCall) : Prop :=
  (call.run I w).PasswordsAgree I

instance (I : Installation) (w : World Accounts) (call : AdminCall) :
    Decidable (call.Agrees I w) := inferInstanceAs (Decidable (World.PasswordsAgree I _))

theorem agrees_iff_settled {I : Installation} {w : World Accounts} (sound : w.Sound I)
    (call : AdminCall) : call.Agrees I w ↔ call.Settled I w := by
  cases call with
  | provision request id draw create adopt =>
      exact ⟨fun _ => trivial, fun _ => (provision_sound sound request id draw create adopt).agree⟩
  | rotate address draw update => exact rotate_agrees_iff sound address draw update

theorem sound_of_agrees {I : Installation} {w : World Accounts} (sound : w.Sound I)
    (call : AdminCall) (agrees : call.Agrees I w) : (call.run I w).Sound I := by
  cases call with
  | provision request id draw create adopt =>
      exact provision_sound sound request id draw create adopt
  | rotate address draw update =>
      obtain ⟨addressed, distinct⟩ := rotate_addresses sound address draw update
      exact ⟨addressed, distinct, agrees⟩

/-- After every call of a run the ends agree, exactly if every rotation of the run is
settled. -/
theorem passwords_agree_iff (I : Installation) (w : World Accounts) (start : w.Sound I)
    (calls : List AdminCall) :
    Along (AdminCall.step I) (AdminCall.Agrees I) w calls ↔
      Along (AdminCall.step I) (AdminCall.Settled I) w calls := by
  refine along_congr (I := World.Sound I)
    (fun w call sound => agrees_iff_settled sound call) ?_ start
    calls
  rintro w call _ sound agrees ⟨⟩
  exact sound_of_agrees sound call agrees

namespace Sample

/-- Tokens of the cipher begin as those of the library do. -/
def cipher : MailboxCipher where
  encrypt _ plaintext := "gAAAAA" ++ plaintext
  decrypt ciphertext :=
    if startsWith "gAAAAA" ciphertext then some (.ofList (ciphertext.toList.drop 6)) else none
  decrypt_encrypt _ plaintext := by
    simp [startsWith]

def installation : Installation where
  rt := runtime
  cipher := cipher
  decoding := { str := fun _ => "", float := fun _ => none }

def passwordOne : PasswordDraw := ⟨{ text := "Aa1aaaaaaaaaaaaaaaaaaaaaaaaaaaaa" }, 1⟩
def passwordTwo : PasswordDraw := ⟨{ text := "Bb2bbbbbbbbbbbbbbbbbbbbbbbbbbbbb" }, 2⟩

/-- A tracked domain without a mailbox, and no account. -/
def unprovisioned : World Accounts :=
  ⟨{ store mailbox with mailboxes := Table.empty }, Table.empty⟩

theorem unprovisioned_sound : unprovisioned.Sound installation :=
  ⟨fun _ mem => (nomatch mem), fun _ mem => (nomatch mem), fun _ mem => (nomatch mem)⟩

def lineDone : Exchange :=
  .answered { response := { status := 200, body := .json (.object [("success", .bool true)]) } }
    { response := { status := 409, body := .json (.object [("success", .bool false)]) } }

/-- Every attempt takes effect, and none is answered. -/
def lineUnnoticed : Line := fun _ => .unanswered .timeout

def lineAnswered : Line := fun _ => lineDone

/-- The answer to the first attempt is lost, that to the second arrives. -/
def lineSecond : Line := fun attempt => if attempt = 1 then .unanswered .timeout else lineDone

def provisionNoreply (create adopt : Line) : AdminCall :=
  .provision { address := "noreply@shop.example" } 1 passwordOne create adopt

end Sample

theorem confirmed_rotation_agrees :
    Along (AdminCall.step Sample.installation) (AdminCall.Agrees Sample.installation)
      Sample.unprovisioned
      [Sample.provisionNoreply Sample.lineSecond Sample.lineSecond,
        .rotate "noreply@shop.example" Sample.passwordTwo Sample.lineSecond] :=
  (passwords_agree_iff Sample.installation Sample.unprovisioned Sample.unprovisioned_sound _).mpr
    (by decide +kernel)

/-- The provider has the new password, and the database keeps the old one. -/
theorem unnoticed_rotation_disagrees :
    Sample.unprovisioned.Sound Sample.installation ∧
      ¬ Along (AdminCall.step Sample.installation) (AdminCall.Agrees Sample.installation)
        Sample.unprovisioned
        [Sample.provisionNoreply Sample.lineAnswered Sample.lineAnswered,
          .rotate "noreply@shop.example" Sample.passwordTwo Sample.lineUnnoticed] :=
  ⟨Sample.unprovisioned_sound, by decide +kernel⟩

end Emaild
