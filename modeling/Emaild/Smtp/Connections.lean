import Emaild.Smtp
import Emaild.Worker

/-!
The connections of one SMTP adapter over whole sequences of calls. Beside the adapter stands
what goes over the wire: every connection that was opened, where to, what its server said,
and the messages that were handed to it.
-/
namespace Emaild
open Relational Text

/-- A message that is handed to a connection, and the host that `send` was given for it. -/
structure Sent where
  message : OutboundMessage
  host : String

/-- A connection whose server has answered EHLO. -/
structure Connection where
  host : String
  banner : String
  carried : List Sent

/-- The `MAILMAX` of an EHLO answer, if it has a positive one. -/
def advertised (banner : String) : Option Nat :=
  (scanLimits banner.length banner.toList (none, none)).1.filter (0 < ·)

/-- The `MAILMAX` in force for a connection. -/
def Connection.mailmax (fallback : ServerLimits) (x : Connection) : Nat :=
  (advertised x.banner).getD fallback.maxMessagesPerConnection

theorem fromEhlo_mailmax (banner : String) (fallback : ServerLimits) :
    (ServerLimits.fromEhlo banner fallback).maxMessagesPerConnection =
      (advertised banner).getD fallback.maxMessagesPerConnection := by
  unfold ServerLimits.fromEhlo advertised
  dsimp only
  cases (scanLimits banner.length banner.toList (none, none)).1 with
  | none => rfl
  | some n => cases n <;> simp [Option.filter]

theorem Connection.mailmax_pos {fallback : ServerLimits}
    (positive : 0 < fallback.maxMessagesPerConnection) (x : Connection) :
    0 < x.mailmax fallback := by
  unfold Connection.mailmax advertised
  cases (scanLimits x.banner.length x.banner.toList (none, none)).1 with
  | none => exact positive
  | some n => cases n <;> simp [Option.filter, positive]

/-- `send_message` does not return. -/
def WireOutcome.raises : WireOutcome → Bool
  | .returned .. => false
  | _ => true

namespace SmtpAdapter
variable (a : SmtpAdapter)

/-- The call goes over the connection that is there. -/
def reuses (c : Conversation) : Bool := a.client.isSome && !a.worn c

/-- The call opens a connection in vain, or hands its message to one and gets an exception. -/
def fails (host : String) (c : Conversation) : Bool :=
  (a.ensureConnection host c).1.isSome || c.outcome.raises

/-- What becomes of the connection to `client` once a message was handed to it: it counts the
message, or it is closed. -/
inductive Ends (c : Conversation) (client : SmtpClient) (sent : Nat) (limits : ServerLimits) :
    SmtpAdapter → Prop
  | counted {a' : SmtpAdapter} (returned : c.outcome.raises = false)
      (kept : a'.client = some client)
      (one : a'.sentOnConnection = sent + 1) (same : a'.limits = limits) :
      Ends c client sent limits a'
  | closed {a' : SmtpAdapter} (raised : c.outcome.raises = true) (gone : a'.client = none) :
      Ends c client sent limits a'

/-- What a call of `send` does to the adapter. -/
inductive Sends (host : String) (c : Conversation) : SmtpAdapter → Prop
  | reused {client : SmtpClient} {a' : SmtpAdapter} (reuses : a.reuses c = true)
      (there : a.client = some client)
      (room : a.sentOnConnection < a.limits.maxMessagesPerConnection)
      (ends : Ends c client a.sentOnConnection a.limits a') : Sends host c a'
  | unreached {failure : ConnectFailure} {a' : SmtpAdapter} (opens : a.reuses c = false)
      (connecting : c.connecting = .failed failure) (gone : a'.client = none) : Sends host c a'
  | turnedAway {banner : String} {failure : ConnectFailure} {a' : SmtpAdapter}
      (opens : a.reuses c = false) (connecting : c.connecting = .greeted banner (some failure))
      (gone : a'.client = none) : Sends host c a'
  | opened {banner : String} {a' : SmtpAdapter} (opens : a.reuses c = false)
      (connecting : c.connecting = .greeted banner none)
      (ends : Ends c ⟨host⟩ 0 (.fromEhlo banner a.fallback) a') : Sends host c a'

@[simp] theorem close_client : a.close.client = none := by
  unfold close
  split
  · rfl
  · assumption

@[simp] theorem close_fallback : a.close.fallback = a.fallback := by
  unfold close
  split <;> rfl

/-- A connection that is there is used, or closed first. -/
theorem ensureConnection_eq (host : String) (c : Conversation) :
    a.ensureConnection host c = if a.reuses c then (none, a)
      else (if a.worn c then a.close else a).connect host c.connecting := by
  unfold ensureConnection reuses
  cases there : a.client with
  | none =>
      have fresh : a.worn c = false := by simp [worn, there]
      simp [fresh, there]
  | some client =>
      cases worn : a.worn c with
      | true => simp
      | false => simp [there]

theorem room_of_reuses {c : Conversation} (h : a.reuses c = true) :
    ∃ client, a.client = some client ∧
      a.sentOnConnection < a.limits.maxMessagesPerConnection := by
  unfold reuses worn at h
  simp only [Bool.and_eq_true, Bool.not_eq_true', Bool.and_eq_false_iff, Bool.or_eq_false_iff,
    decide_eq_false_iff_not, Nat.not_le, Option.isSome_iff_exists] at h
  obtain ⟨⟨client, there⟩, unconnected | ⟨room, _⟩⟩ := h
  · rw [there] at unconnected
    cases unconnected
  · exact ⟨client, there, room⟩

/-- What `send` does once a message was handed to the connection. -/
theorem ends_of_transaction {c : Conversation} {client : SmtpClient}
    (there : a.client = some client) :
    Ends c client a.sentOnConnection a.limits
      (match c.outcome with
        | .returned .. => { a with sentOnConnection := a.sentOnConnection + 1 }
        | _ => a.close) := by
  cases outcome : c.outcome with
  | returned => exact .counted (by rw [outcome]; rfl) there rfl rfl
  | _ => exact .closed (by rw [outcome]; rfl) a.close_client

/-- The adapter with a connection that has just been opened. -/
def connected (host banner : String) : SmtpAdapter :=
  { a with
    limits? := some (.fromEhlo banner a.fallback), client := some ⟨host⟩, sentOnConnection := 0 }

theorem connect_greeted (host banner : String) :
    a.connect host (.greeted banner none) = (none, a.connected host banner) := rfl

/-- The adapter that opens a connection. -/
def cleared (c : Conversation) : SmtpAdapter := if a.worn c then a.close else a

@[simp] theorem cleared_fallback (c : Conversation) : (a.cleared c).fallback = a.fallback := by
  unfold cleared
  split <;> simp

theorem send_cases (recipients : List String) (host : String) (c : Conversation) :
    a.Sends host c (a.send recipients host c).2 := by
  have ensured := a.ensureConnection_eq host c
  cases reuses : a.reuses c with
  | true =>
      obtain ⟨client, there, room⟩ := a.room_of_reuses reuses
      rw [reuses, if_pos rfl] at ensured
      rw [send, ensured]
      exact .reused reuses there room (a.ends_of_transaction there)
  | false =>
      rw [reuses, if_neg Bool.false_ne_true] at ensured
      change _ = (a.cleared c).connect host c.connecting at ensured
      rw [send, ensured]
      cases connecting : c.connecting with
      | failed failure => exact .unreached reuses connecting (close_client _)
      | greeted banner login =>
          cases login with
          | some failure => exact .turnedAway reuses connecting (close_client _)
          | none =>
              rw [connect_greeted]
              refine .opened reuses connecting ?_
              rw [← a.cleared_fallback c]
              exact ((a.cleared c).connected host banner).ends_of_transaction rfl

@[simp] theorem connect_fallback (host : String) (c : Connecting) :
    (a.connect host c).2.fallback = a.fallback := by
  unfold connect
  split
  · rfl
  · dsimp only
    split <;> rfl

@[simp] theorem send_fallback (recipients : List String) (host : String) (c : Conversation) :
    (a.send recipients host c).2.fallback = a.fallback := by
  have kept : (a.ensureConnection host c).2.fallback = a.fallback := by
    rw [ensureConnection_eq]
    split
    · rfl
    · rw [connect_fallback]
      exact a.cleared_fallback c
  unfold send
  split
  · rename_i failure opened same
    rw [same] at kept
    exact opened.close_fallback.trans kept
  · rename_i opened same
    rw [same] at kept
    dsimp only
    split
    · exact kept
    · exact opened.close_fallback.trans kept

/-- A call that fails leaves no connection behind. -/
theorem client_of_fails {host : String} {c : Conversation} (h : a.fails host c = true)
    (recipients : List String) : (a.send recipients host c).2.client = none := by
  unfold fails at h
  unfold send
  split
  · exact close_client _
  · rename_i opened ensured
    rw [ensured] at h
    dsimp only
    split
    · rename_i returned
      rw [returned] at h
      cases h
    · exact close_client _

/-- A call without success has failed, unless the server's answers name every recipient. -/
theorem fails_of_unsuccessful {recipients : List String} {host : String} {c : Conversation}
    (h : (a.send recipients host c).1.success = false) : a.fails host c = true ∨
      ∃ errors response, c.outcome = .returned errors response ∧
        ∀ r ∈ recipients, errors.find? r ≠ none := by
  cases failed : a.fails host c with
  | true => exact .inl rfl
  | false =>
      simp only [fails, Bool.or_eq_false_iff, Option.isSome_eq_false_iff, Option.isNone_iff_eq_none]
        at failed
      obtain ⟨ensured, quiet⟩ := failed
      cases outcome : c.outcome with
      | returned errors response =>
          refine .inr ⟨errors, response, rfl, fun r mem free => ?_⟩
          unfold send at h
          split at h
          · rename_i same
            rw [same] at ensured
            cases ensured
          · rw [outcome] at h
            simp only [smtpSend, Bool.not_eq_false', List.isEmpty_iff, List.filter_eq_nil_iff] at h
            exact h r mem (by simp [free])
      | _ =>
          rw [outcome] at quiet
          cases quiet

end SmtpAdapter
/-- The calls of an adapter. A message that cannot be built does not come to a connection. -/
inductive SmtpCall
  | send (message : OutboundMessage) (host : String) (c : Conversation)
  | unbuilt
  | close

def SmtpCall.isSend : SmtpCall → Bool
  | send .. => true
  | _ => false

/-- An adapter, and the connections that it has opened, the last one first. -/
structure Wire where
  adapter : SmtpAdapter
  connections : List Connection := []

namespace Wire

/-- A message is handed to the last connection. -/
def carry (s : Sent) : List Connection → List Connection
  | [] => []
  | x :: rest => { x with carried := x.carried ++ [s] } :: rest

/-- The connections after a call of `send`. -/
def after (w : Wire) (s : Sent) (c : Conversation) : List Connection :=
  if w.adapter.reuses c then carry s w.connections
  else match c.connecting with
    | .failed _ => w.connections
    | .greeted banner (some _) => ⟨s.host, banner, []⟩ :: w.connections
    | .greeted banner none => ⟨s.host, banner, [s]⟩ :: w.connections

def step (w : Wire) : SmtpCall → Wire
  | .send message host c =>
      { adapter := (w.adapter.send message.envelopeRecipients host c).2
        connections := w.after ⟨message, host⟩ c }
  | .unbuilt => w
  | .close => { w with adapter := w.adapter.close }

def run (w : Wire) (calls : List SmtpCall) : Wire := calls.foldl step w

/-- What is known of the connection that is there. -/
structure Current (fallback : ServerLimits) (w : Wire) (client : SmtpClient) (x : Connection) :
    Prop where
  last : ∃ rest, w.connections = x :: rest
  host : x.host = client.host
  limit : w.adapter.limits.maxMessagesPerConnection = x.mailmax fallback
  count : w.adapter.sentOnConnection = x.carried.length

/-- The adapter knows where its connection was opened to, what that may carry and has carried. -/
structure Known (fallback : ServerLimits) (w : Wire) : Prop where
  same : w.adapter.fallback = fallback
  current : ∀ client, w.adapter.client = some client → ∃ x, Current fallback w client x

/-- A message was handed to the last connection. -/
theorem known_of_ends {fallback : ServerLimits} {c : Conversation} {client : SmtpClient}
    {sent : Nat} {limits : ServerLimits} {w : Wire} {x : Connection} {s : Sent}
    {rest : List Connection} (same : w.adapter.fallback = fallback)
    (last : w.connections = { x with carried := x.carried ++ [s] } :: rest)
    (host : x.host = client.host) (limit : limits.maxMessagesPerConnection = x.mailmax fallback)
    (count : sent = x.carried.length)
    (ends : SmtpAdapter.Ends c client sent limits w.adapter) : w.Known fallback := by
  refine ⟨same, fun client' there => ?_⟩
  cases ends with
  | counted returned kept one sameLimits =>
      cases kept.symm.trans there
      refine ⟨_, ⟨rest, last⟩, host, ?_, ?_⟩
      · rw [sameLimits]
        exact limit
      · rw [one, count, List.length_append]
        rfl
  | closed raised gone => cases gone.symm.trans there

/-- What a call of `send` does to the connections, one way for each that `Sends` has. -/
inductive Hands (fallback : ServerLimits) (w : Wire) (s : Sent) (c : Conversation) :
    List Connection → Prop
  | reused {client : SmtpClient} {x : Connection} {rest : List Connection}
      (reuses : w.adapter.reuses c = true) (there : w.adapter.client = some client)
      (host : x.host = client.host) (last : w.connections = x :: rest)
      (room : x.carried.length < x.mailmax fallback) :
      Hands fallback w s c ({ x with carried := x.carried ++ [s] } :: rest)
  | unreached (opens : w.adapter.reuses c = false) : Hands fallback w s c w.connections
  | turnedAway (opens : w.adapter.reuses c = false) (banner : String) :
      Hands fallback w s c (⟨s.host, banner, []⟩ :: w.connections)
  | opened (opens : w.adapter.reuses c = false) (banner : String) :
      Hands fallback w s c (⟨s.host, banner, [s]⟩ :: w.connections)

theorem Known.send {fallback : ServerLimits} {w : Wire} (h : w.Known fallback)
    (message : OutboundMessage) (host : String) (c : Conversation) :
    (w.step (.send message host c)).Known fallback ∧
      Hands fallback w ⟨message, host⟩ c (w.after ⟨message, host⟩ c) := by
  have same : (w.step (.send message host c)).adapter.fallback = fallback :=
    (w.adapter.send_fallback ..).trans h.same
  cases w.adapter.send_cases message.envelopeRecipients host c with
  | @reused client _ reuses there room ends =>
      obtain ⟨x, ⟨⟨rest, last⟩, opened, limit, count⟩⟩ := h.current client there
      have carried : w.after ⟨message, host⟩ c =
          { x with carried := x.carried ++ [⟨message, host⟩] } :: rest := by
        simp only [after, reuses, if_true, last, carry]
      rw [limit, count] at room
      rw [carried]
      exact ⟨known_of_ends same carried opened limit count ends,
        .reused reuses there opened last room⟩
  | unreached opens connecting gone =>
      have carried : w.after ⟨message, host⟩ c = w.connections := by simp [after, opens, connecting]
      rw [carried]
      exact ⟨⟨same, fun client there => by cases gone.symm.trans there⟩, .unreached opens⟩
  | @turnedAway banner _ _ opens connecting gone =>
      have carried : w.after ⟨message, host⟩ c = ⟨host, banner, []⟩ :: w.connections := by
        simp [after, opens, connecting]
      rw [carried]
      exact ⟨⟨same, fun client there => by cases gone.symm.trans there⟩, .turnedAway opens banner⟩
  | @opened banner _ opens connecting ends =>
      have carried : w.after ⟨message, host⟩ c =
          ⟨host, banner, [⟨message, host⟩]⟩ :: w.connections := by
        simp [after, opens, connecting]
      rw [carried]
      rw [h.same] at ends
      exact ⟨known_of_ends (x := ⟨host, banner, []⟩) same carried rfl
        (fromEhlo_mailmax banner fallback) rfl ends, .opened opens banner⟩

theorem Known.step {fallback : ServerLimits} {w : Wire} (h : w.Known fallback) (call : SmtpCall) :
    (w.step call).Known fallback := by
  cases call with
  | send message host c => exact (h.send message host c).1
  | unbuilt => exact h
  | close =>
      refine ⟨w.adapter.close_fallback.trans h.same, fun client there => ?_⟩
      cases w.adapter.close_client.symm.trans there

theorem known_run {fallback : ServerLimits} {w : Wire} (h : w.Known fallback)
    (calls : List SmtpCall) : (w.run calls).Known fallback := by
  induction calls generalizing w with
  | nil => exact h
  | cons call calls ih => exact ih (h.step call)

/-- A new adapter has no connection. -/
theorem known_new {a : SmtpAdapter} (new : a.client = none) : Known a.fallback ⟨a, []⟩ :=
  ⟨rfl, fun client there => by cases new.symm.trans there⟩

/-! How much a connection carries. -/

def Within (fallback : ServerLimits) (w : Wire) : Prop :=
  ∀ x ∈ w.connections, x.carried.length ≤ x.mailmax fallback

theorem Within.step {fallback : ServerLimits} (positive : 0 < fallback.maxMessagesPerConnection)
    {w : Wire} (known : w.Known fallback) (h : w.Within fallback) (call : SmtpCall) :
    (w.step call).Within fallback := by
  cases call with
  | unbuilt => exact h
  | close => exact h
  | send message host c =>
      have handed := (known.send message host c).2
      unfold Within
      rw [Wire.step]
      generalize w.after ⟨message, host⟩ c = connections at handed
      cases handed with
      | @reused client x rest reuses there opened last room =>
          unfold Within at h
          rw [last] at h
          refine List.forall_mem_cons.mpr ⟨?_, fun y mem => h y (List.mem_cons_of_mem _ mem)⟩
          rw [List.length_append]
          exact room
      | unreached => exact h
      | turnedAway => exact List.forall_mem_cons.mpr ⟨Nat.zero_le _, h⟩
      | opened opens banner =>
          exact List.forall_mem_cons.mpr ⟨Connection.mailmax_pos positive _, h⟩

theorem within_run {fallback : ServerLimits} (positive : 0 < fallback.maxMessagesPerConnection)
    {w : Wire} (known : w.Known fallback) (h : w.Within fallback) (calls : List SmtpCall) :
    (w.run calls).Within fallback := by
  induction calls generalizing w with
  | nil => exact h
  | cons call calls ih => exact ih (known.step call) (h.step positive known call)

/-- Without a connection a call leaves those that were opened before as they are. -/
theorem suffix_of_no_client {w : Wire} (unconnected : w.adapter.client = none) (s : Sent)
    (c : Conversation) : ∃ opened, w.after s c = opened ++ w.connections ∧
      ∀ x ∈ opened, x.host = s.host := by
  have opens : w.adapter.reuses c = false := by simp [SmtpAdapter.reuses, unconnected]
  unfold after
  rw [opens, if_neg Bool.false_ne_true]
  split
  · exact ⟨[], rfl, nofun⟩
  · exact ⟨[_], rfl, by simp⟩
  · exact ⟨[_], rfl, by simp⟩

theorem run_without_send {w : Wire} (unconnected : w.adapter.client = none) {calls : List SmtpCall}
    (idle : ∀ call ∈ calls, call.isSend = false) : (w.run calls).adapter.client = none := by
  induction calls generalizing w with
  | nil => exact unconnected
  | cons call calls ih =>
      obtain ⟨here, rest⟩ := List.forall_mem_cons.mp idle
      refine ih ?_ rest
      cases call with
      | send => cases here
      | unbuilt => exact unconnected
      | close => exact w.adapter.close_client

/-- No connection carries more messages than its server takes. After a call of `send` that has
failed the next one leaves the connections that it finds alone; and a call has failed if it
has no success, unless the server's answers name every recipient. -/
theorem connections_within_mailmax (a : SmtpAdapter) (new : a.client = none)
    (positive : 0 < a.fallback.maxMessagesPerConnection) (calls : List SmtpCall) :
    (∀ x ∈ (run ⟨a, []⟩ calls).connections, x.carried.length ≤ x.mailmax a.fallback) ∧
    ∀ message host c,
      ((run ⟨a, []⟩ calls).adapter.fails host c = true →
        ∀ idle, (∀ call ∈ idle, SmtpCall.isSend call = false) → ∀ message' host' c',
          ∃ opened, (run ⟨a, []⟩
              (calls ++ .send message host c :: idle ++ [.send message' host' c'])).connections =
            opened ++ (run ⟨a, []⟩ (calls ++ .send message host c :: idle)).connections ∧
            ∀ x ∈ opened, x.host = host') ∧
      (((run ⟨a, []⟩ calls).adapter.send message.envelopeRecipients host c).1.success = false →
        (run ⟨a, []⟩ calls).adapter.fails host c = true ∨
          ∃ errors response, c.outcome = .returned errors response ∧
            ∀ r ∈ message.envelopeRecipients, errors.find? r ≠ none) := by
  refine ⟨within_run positive (known_new new) nofun calls, ?_⟩
  refine fun message host c => ⟨?_, SmtpAdapter.fails_of_unsuccessful _⟩
  intro fails idle quiet message' host' c'
  have gone := SmtpAdapter.client_of_fails _ fails message.envelopeRecipients
  have unconnected :
      (run ⟨a, []⟩ (calls ++ .send message host c :: idle)).adapter.client = none := by
    unfold run
    rw [List.foldl_append, List.foldl_cons]
    exact run_without_send gone quiet
  obtain ⟨opened, same, hosts⟩ := suffix_of_no_client unconnected ⟨message', host'⟩ c'
  refine ⟨opened, ?_, hosts⟩
  rw [run, List.foldl_append]
  exact same

end Wire

/-! A server that takes one message for a connection. -/
namespace Sample

def smtpAdapter : SmtpAdapter where
  username := "noreply@shop.example"
  password := "secret"
  fallback := ⟨100, 150, 52428800⟩

def parcel : OutboundMessage where
  publicId := "email_A"
  envelopeFrom := "noreply@shop.example"
  fromAddress := "noreply@shop.example"
  fromName := none
  «to» := ["ann@example.net"]
  cc := []
  bcc := []
  replyTo := none
  subject := none
  html := none
  text := some "hello"

/-- The connection that is there is alive, a new one can be made, and the message is taken. -/
def smooth (banner : String) : Conversation where
  connected := true
  connecting := .greeted banner none
  outcome := .returned Table.empty "250 OK"

def strictCalls : List SmtpCall :=
  [.send parcel "mx.example" (smooth "LIMITS MAILMAX=1"),
    .send parcel "mx.example" (smooth "LIMITS MAILMAX=1")]

end Sample

/-- Its second message gets a connection of its own. -/
theorem one_message_each :
    (Wire.run ⟨Sample.smtpAdapter, []⟩ Sample.strictCalls).connections.map
      (fun x => x.carried.length) = [1, 1] ∧
    ∀ x ∈ (Wire.run ⟨Sample.smtpAdapter, []⟩ Sample.strictCalls).connections,
      x.carried.length ≤ x.mailmax Sample.smtpAdapter.fallback :=
  ⟨by decide, (Wire.connections_within_mailmax Sample.smtpAdapter rfl (by decide)
    Sample.strictCalls).1⟩

/-! Where a message goes. -/

namespace Wire

/-- Every message was handed to a connection to the host that was given for it. -/
def Direct (w : Wire) : Prop := ∀ x ∈ w.connections, ∀ s ∈ x.carried, s.host = x.host

/-- A connection that is used again was opened to the host that the call gives. -/
def Steady (w : Wire) : SmtpCall → Prop
  | .send _ host c => w.adapter.reuses c = true → ∀ client ∈ w.adapter.client, client.host = host
  | _ => True

theorem direct_step_iff {fallback : ServerLimits} {w : Wire} (known : w.Known fallback)
    (call : SmtpCall) : (w.step call).Direct ↔ w.Direct ∧ w.Steady call := by
  cases call with
  | unbuilt => exact (and_iff_left trivial).symm
  | close => exact (and_iff_left trivial).symm
  | send message host c =>
      have handed := (known.send message host c).2
      unfold Direct
      rw [Wire.step]
      generalize w.after ⟨message, host⟩ c = connections at handed
      unfold Steady
      cases handed with
      | @reused client x rest reuses there opened last room =>
          rw [last]
          simp only [List.forall_mem_cons, List.forall_mem_append, reuses, there, opened,
            Option.mem_some_iff, forall_eq', forall_const, List.not_mem_nil, false_implies,
            implies_true, and_true]
          rw [and_right_comm, eq_comm (a := host)]
      | unreached opens => simp [opens]
      | turnedAway opens banner => simp [opens]
      | opened opens banner => simp [opens]

theorem direct_run_iff {fallback : ServerLimits} {w : Wire} (known : w.Known fallback)
    (calls : List SmtpCall) : (w.run calls).Direct ↔
      w.Direct ∧ ∀ before call, before ++ [call] <+: calls → (w.run before).Steady call := by
  induction calls using List.reverseRecOn with
  | nil => simp [run]
  | append_singleton calls call ih =>
      have last : w.run (calls ++ [call]) = (w.run calls).step call := by
        rw [run, List.foldl_append]
        rfl
      rw [last, direct_step_iff (known_run known calls), ih, and_assoc]
      refine and_congr_right fun _ => ?_
      constructor
      · rintro ⟨earlier, here⟩ before call' first
        rcases List.prefix_concat_iff.mp first with whole | within
        · obtain ⟨rfl, same⟩ := List.append_inj' whole rfl
          cases same
          exact here
        · exact earlier before call' within
      · exact fun steady => ⟨fun before call' first =>
          steady before call' (first.trans (List.prefix_append ..)),
            steady calls call List.prefix_rfl⟩

/-- The host that a worker gives is the one that its `delivery.attempt` event has. -/
theorem attempt_recorded {margin : SafetyMargin} {fails : Bool} {db db' : Database} {id : Nat}
    {now later : Time} {attempt : Attempt}
    (h : openDelivery margin fails db id now later = .ok (.stamped attempt, db')) :
    ∃ e ∈ db'.timeline id, e.eventType = "delivery.attempt" ∧
      e.detail = .attempt attempt.number attempt.host := by
  unfold openDelivery at h
  split at h
  · cases h
  · rename_i m mailbox domain found
    obtain rfl : m.id = id := Relational.Table.key_of_find? (deliveryRow_eq_some.mp found).1
    dsimp only at h
    split at h
    · cases h
    · split at h
      · cases h
      · split at h
        · cases h
        · cases h
          rw [Database.timeline_emit, if_pos rfl]
          exact ⟨_, List.mem_append_right _ (List.mem_singleton.mpr rfl), rfl, rfl⟩

/-- Over a whole run every message goes to the host that was given for it if and only if no
call uses a connection again that was opened to another one. The host that a worker gives is
the one that its `delivery.attempt` event has. -/
theorem transmitted_to_host_iff (a : SmtpAdapter) (new : a.client = none) (calls : List SmtpCall) :
    ((run ⟨a, []⟩ calls).Direct ↔
      ∀ before call, before ++ [call] <+: calls → (run ⟨a, []⟩ before).Steady call) ∧
    ∀ margin fails db id now later attempt db',
      openDelivery margin fails db id now later = .ok (.stamped attempt, db') →
        ∃ e ∈ db'.timeline id, e.eventType = "delivery.attempt" ∧
          e.detail = .attempt attempt.number attempt.host :=
  ⟨(direct_run_iff (known_new new) calls).trans (and_iff_right nofun),
    fun _ _ _ _ _ _ _ _ opened => attempt_recorded opened⟩

end Wire

/-! The mail server of a domain changes while a connection to the old one is there. -/
namespace Sample

def movedCalls : List SmtpCall :=
  [.send parcel "mx.example" (smooth ""), .send parcel "mx2.example" (smooth "")]

def settledCalls : List SmtpCall :=
  [.send parcel "mx.example" (smooth ""), .close, .send parcel "mx2.example" (smooth "")]

end Sample

/-- The second message goes to the old one. -/
theorem second_goes_to_old_host :
    (Wire.run ⟨Sample.smtpAdapter, []⟩ Sample.movedCalls).connections.map
      (fun x => (x.host, x.carried.map Sent.host)) =
        [("mx.example", ["mx.example", "mx2.example"])] ∧
    ¬ (Wire.run ⟨Sample.smtpAdapter, []⟩ Sample.movedCalls).Direct := by
  refine ⟨by decide, fun direct => ?_⟩
  have same := direct _ List.mem_cons_self ⟨Sample.parcel, "mx2.example"⟩
    (List.mem_cons_of_mem _ List.mem_cons_self)
  exact absurd same (by decide)

/-- Once the connection has been closed the message goes to the new one. -/
theorem each_goes_to_its_host :
    (Wire.run ⟨Sample.smtpAdapter, []⟩ Sample.settledCalls).connections.map
      (fun x => (x.host, x.carried.map Sent.host)) =
        [("mx2.example", ["mx2.example"]), ("mx.example", ["mx.example"])] ∧
    ((Wire.run ⟨Sample.smtpAdapter, []⟩ Sample.settledCalls).Direct ↔
      ∀ before call, before ++ [call] <+: Sample.settledCalls →
        (Wire.run ⟨Sample.smtpAdapter, []⟩ before).Steady call) :=
  ⟨by decide, (Wire.transmitted_to_host_iff Sample.smtpAdapter rfl Sample.settledCalls).1⟩

end Emaild
