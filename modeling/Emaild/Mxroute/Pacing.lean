import Emaild.Mxroute
import Emaild.Numeric.SlidingWindow

/-!
The pacing of the provider's client. A limiter belongs to one client and knows what that
client has asked for; what earlier clients have sent is kept beside it, where no code sees
it.
-/
namespace Emaild.Mxroute
open SlidingWindow Text

/-! The limiter. -/

def readLimitPerMinute : Nat := 100
def writeLimitPerMinute : Nat := 20

/-- `int(limit * _SAFETY)` -/
def safely (limit : Nat) : Nat := limit * 8 / 10

/-- The width of a limiter's windows. -/
def window : Time := seconds 60

structure RateLimiter where
  readLimit : Nat := safely readLimitPerMinute
  writeLimit : Nat := safely writeLimitPerMinute
  reads : List Time := []
  writes : List Time := []
  readLimit_pos : 0 < readLimit := by decide
  writeLimit_pos : 0 < writeLimit := by decide

namespace RateLimiter

theorem safeReadLimit_pos : 0 < safely readLimitPerMinute := by decide

theorem safeWriteLimit_pos : 0 < safely writeLimitPerMinute := by decide

variable (l : RateLimiter)

def bucket (isWrite : Bool) : List Time := if isWrite then l.writes else l.reads

def limit (isWrite : Bool) : Nat := if isWrite then l.writeLimit else l.readLimit

def setBucket (isWrite : Bool) (times : List Time) : RateLimiter :=
  if isWrite then { l with writes := times } else { l with reads := times }

theorem limit_pos (isWrite : Bool) : 0 < l.limit isWrite := by
  unfold limit
  split
  · exact l.writeLimit_pos
  · exact l.readLimit_pos

/-- `[t for t in bucket if now - t < 60.0]` -/
def kept (isWrite : Bool) (now : Time) : List Time :=
  (l.bucket isWrite).filter fun t => now - t < window

/-- A pass of the loop in `acquire`: it is granted, or there is some time to wait. -/
def pass (isWrite : Bool) (now : Time) : RateLimiter × Option Time :=
  let bucket := l.kept isWrite now
  if full : l.limit isWrite ≤ bucket.length then
    -- until the oldest call ages out of the window
    let oldest := bucket.head (List.length_pos_iff.mp ((l.limit_pos isWrite).trans_le full))
    (l.setBucket isWrite bucket, some (window - (now - oldest) + 50000))
  else (l.setBucket isWrite (bucket ++ [now]), none)

@[simp] theorem bucket_setBucket (isWrite : Bool) (times : List Time) :
    (l.setBucket isWrite times).bucket isWrite = times := by
  cases isWrite <;> rfl

@[simp] theorem writeLimit_setBucket (isWrite : Bool) (times : List Time) :
    (l.setBucket isWrite times).writeLimit = l.writeLimit := by
  cases isWrite <;> rfl

@[simp] theorem limit_setBucket (isWrite : Bool) (times : List Time) (other : Bool) :
    (l.setBucket isWrite times).limit other = l.limit other := by
  cases isWrite <;> cases other <;> rfl

theorem kept_eq_prune (isWrite : Bool) (now : Time) :
    l.kept isWrite now = prune (now - window) (l.bucket isWrite) := by
  unfold kept prune
  refine List.filter_congr fun t _ => ?_
  rw [Bool.eq_iff_iff, decide_eq_true_eq, decide_eq_true_eq]
  exact sub_lt_comm

/-- What a pass can do. -/
inductive Passes (isWrite : Bool) (now : Time) : RateLimiter × Option Time → Prop
  | granted (room : (l.kept isWrite now).length < l.limit isWrite) :
      Passes isWrite now (l.setBucket isWrite (l.kept isWrite now ++ [now]), none)
  | waits {oldest : Time} {rest : List Time} (full : l.kept isWrite now = oldest :: rest) :
      Passes isWrite now (l.setBucket isWrite (oldest :: rest),
        some (window - (now - oldest) + 50000))

theorem pass_cases (isWrite : Bool) (now : Time) : l.Passes isWrite now (l.pass isWrite now) := by
  unfold pass
  dsimp only
  split
  · rename_i full
    have filled := (l.limit_pos isWrite).trans_le full
    obtain ⟨oldest, rest, bucket⟩ := List.exists_cons_of_length_pos filled
    simp only [bucket, List.head_cons]
    exact .waits bucket
  · exact .granted (by omega)

end RateLimiter

/-! The link. -/

/-- What lies beyond a client: a clock, and a provider that answers in its own time. A sleep
lasts at least as long as it is asked to. -/
structure Network (τ : Type) extends Decoding where
  clock : τ → Time
  sleep : Time → τ → τ
  answer : Request → (attempt : Nat) → τ → Except TransportFailure Response × τ
  clock_sleep : ∀ d t, clock t + d ≤ clock (sleep d t)
  clock_le_sleep : ∀ d t, clock t ≤ clock (sleep d t)
  clock_le_answer : ∀ r n t, clock t ≤ clock (answer r n t).2

/-- A client's limiter, the times of the write requests that it has sent and of those that
the clients before it have sent, and what lies beyond. -/
structure Link (τ : Type) where
  limiter : RateLimiter
  earlier : List Time
  own : List Time
  far : τ

namespace Link
variable {τ : Type}

def written (link : Link τ) : List Time := link.earlier ++ link.own

/-- The passes of `acquire`, with the sleeps between them. -/
def passes (net : Network τ) (isWrite : Bool) : Nat → Link τ → Link τ
  | 0, link => link
  | fuel + 1, link =>
      match link.limiter.pass isWrite (net.clock link.far) with
      | (limiter, none) => { link with limiter := limiter }
      | (limiter, some wait) =>
          passes net isWrite fuel { link with limiter := limiter, far := net.sleep wait link.far }

/-- `acquire`: every pass that waits drops a call of the bucket. -/
def acquire (net : Network τ) (m : Method) (link : Link τ) : Link τ :=
  link.passes net m.isWrite ((link.limiter.bucket m.isWrite).length + 1)

/-- A request leaves. -/
def send (net : Network τ) (r : Request) (attempt : Nat) (link : Link τ) :
    Except TransportFailure Response × Link τ :=
  let own := if r.method.isWrite then link.own ++ [net.clock link.far] else link.own
  let (result, far) := net.answer r attempt link.far
  (result, { link with own := own, far := far })

/-- `MXRouteClient(*credentials)` -/
def renew (link : Link τ) : Link τ :=
  { link with limiter := {}, earlier := link.written, own := [] }

end Link

/-- The client at a link. -/
def Network.client {τ : Type} (net : Network τ) : Client (Link τ) where
  toDecoding := net.toDecoding
  acquire := Link.acquire net
  pause d link := { link with far := net.sleep d link.far }
  send := Link.send net

/-! What the limiter knows. -/

namespace Link
variable {τ : Type} (net : Network τ)

/-- A request has been granted: fewer than the limit were left in the window that ends with
it. -/
structure Granted (isWrite : Bool) (link link' : Link τ) : Prop where
  earlier : link'.earlier = link.earlier
  own : link'.own = link.own
  later : net.clock link.far ≤ net.clock link'.far
  bucket : link'.limiter.bucket isWrite =
    prune (net.clock link'.far - window) (link.limiter.bucket isWrite) ++ [net.clock link'.far]
  room : (prune (net.clock link'.far - window) (link.limiter.bucket isWrite)).length <
    link.limiter.limit isWrite
  writeLimit : link'.limiter.writeLimit = link.limiter.writeLimit
  writes : isWrite = false → link'.limiter.writes = link.limiter.writes

/-- A request is granted after a wait as it would be without what the wait has dropped. -/
theorem Granted.after_wait {isWrite : Bool} {link link' : Link τ} {far : τ}
    (later : net.clock link.far ≤ net.clock far)
    (granted : Granted net isWrite { link with
      limiter := link.limiter.setBucket isWrite (link.limiter.kept isWrite (net.clock link.far))
      far := far } link') : Granted net isWrite link link' := by
  have rest := granted.later
  have pruned : prune (net.clock link'.far - window)
      (link.limiter.kept isWrite (net.clock link.far)) =
        prune (net.clock link'.far - window) (link.limiter.bucket isWrite) := by
    rw [RateLimiter.kept_eq_prune, prune_prune (sub_le_sub_right (later.trans rest) window)]
  refine ⟨granted.earlier, granted.own, later.trans rest, ?_, ?_, ?_, fun read => ?_⟩
  · rw [granted.bucket, RateLimiter.bucket_setBucket, pruned]
  · have room := granted.room
    rwa [RateLimiter.bucket_setBucket, pruned, RateLimiter.limit_setBucket] at room
  · exact granted.writeLimit.trans (RateLimiter.writeLimit_setBucket ..)
  · subst read
    exact granted.writes rfl

theorem granted_of_passes {isWrite : Bool} {fuel : Nat} {link : Link τ}
    (enough : (link.limiter.kept isWrite (net.clock link.far)).length < fuel) :
    Granted net isWrite link (link.passes net isWrite fuel) := by
  induction fuel generalizing link with
  | zero => omega
  | succ fuel ih =>
      have passing := link.limiter.pass_cases isWrite (net.clock link.far)
      have pruned := link.limiter.kept_eq_prune isWrite (net.clock link.far)
      rw [passes]
      generalize link.limiter.pass isWrite (net.clock link.far) = passed at passing
      cases passing with
      | granted room =>
          refine ⟨rfl, rfl, le_rfl, ?_, ?_, ?_, ?_⟩
          · simp [pruned]
          · rwa [pruned] at room
          · simp
          · rintro rfl
            rfl
      | @waits oldest rest full =>
          let wait := window - (net.clock link.far - oldest) + 50000
          have slept := net.clock_sleep wait link.far
          have margin : oldest + window ≤ net.clock link.far + wait := by
            rw [show net.clock link.far + wait = oldest + window + 50000 by ring]
            exact le_add_of_nonneg_right (by decide)
          refine Granted.after_wait net (net.clock_le_sleep wait _) ?_
          rw [full]
          refine ih ?_
          -- the oldest call has aged out when the sleep is over
          have dropped : oldest ≤ net.clock (net.sleep wait link.far) - window :=
            le_sub_iff_add_le.mpr (margin.trans slept)
          have shorter := length_prune_lt rest dropped
          rw [full] at enough
          rw [RateLimiter.kept_eq_prune, RateLimiter.bucket_setBucket]
          dsimp only
          omega

/-- A call of `acquire` returns, and it has been granted. -/
theorem granted_of_acquire (m : Method) (link : Link τ) :
    Granted net m.isWrite link (link.acquire net m) := by
  refine granted_of_passes net ?_
  rw [RateLimiter.kept]
  exact Nat.lt_succ_of_le (List.length_filter_le ..)

/-- A client's limiter keeps those of its write requests that count, and no window holds more
write requests of all clients than the limit. -/
structure Paced (limit : Nat) (link : Link τ) : Prop where
  writeLimit : link.limiter.writeLimit = limit
  view : ∃ cutoff, cutoff ≤ net.clock link.far - window ∧
    link.limiter.writes = prune cutoff link.own
  law : WithinOpen limit window link.written

/-- What earlier clients have sent does not count any more. -/
def Settled (link : Link τ) : Prop := ∀ t ∈ link.earlier, t + window ≤ net.clock link.far

instance (link : Link τ) : Decidable (Settled net link) :=
  inferInstanceAs (Decidable (∀ t ∈ link.earlier, t + window ≤ net.clock link.far))

variable {net} {limit : Nat} {link : Link τ}

theorem Paced.sleep (paced : Paced net limit link) (d : Time) :
    Paced net limit { link with far := net.sleep d link.far } := by
  obtain ⟨cutoff, early, view⟩ := paced.view
  exact ⟨paced.writeLimit,
    ⟨cutoff, early.trans (sub_le_sub_right (net.clock_le_sleep d _) _), view⟩, paced.law⟩

theorem Settled.later {link' : Link τ} (settled : Settled net link)
    (earlier : link'.earlier = link.earlier) (later : net.clock link.far ≤ net.clock link'.far) :
    Settled net link' := by
  intro t mem
  rw [earlier] at mem
  exact (settled t mem).trans later

theorem clock_le_send (r : Request) (n : Nat) (link : Link τ) :
    net.clock link.far ≤ net.clock (link.send net r n).2.far := net.clock_le_answer r n _

/-- A request that only reads does not touch what is known of the others. -/
theorem Paced.read (paced : Paced net limit link) {r : Request} (read : r.method.isWrite = false)
    (n : Nat) : Paced net limit ((link.acquire net r.method).send net r n).2 := by
  have granted := granted_of_acquire net r.method link
  have later := granted.later.trans (clock_le_send r n _)
  obtain ⟨cutoff, early, view⟩ := paced.view
  have same : ((link.acquire net r.method).send net r n).2.own = link.own := by
    simp [send, read, granted.own]
  refine ⟨granted.writeLimit.trans paced.writeLimit,
    ⟨cutoff, early.trans (sub_le_sub_right later _), ?_⟩, ?_⟩
  · rw [same, ← view]
    exact granted.writes read
  · rw [written, same]
    show WithinOpen limit window ((link.acquire net r.method).earlier ++ link.own)
    rw [granted.earlier]
    exact paced.law

/-- One that writes is admitted when nothing of what counts is unknown. -/
theorem Paced.write (paced : Paced net limit link) (settled : Settled net link) {r : Request}
    (write : r.method.isWrite = true) (n : Nat) :
    Paced net limit ((link.acquire net r.method).send net r n).2 := by
  have granted := granted_of_acquire net r.method link
  rw [write] at granted
  obtain ⟨cutoff, early, view⟩ := paced.view
  let now := net.clock (link.acquire net r.method).far
  have known : prune (now - window) link.limiter.writes = prune (now - window) link.own := by
    rw [view, prune_prune (early.trans (sub_le_sub_right granted.later _))]
  have gone : prune (now - window) link.earlier = [] :=
    prune_eq_nil fun t mem => le_sub_iff_add_le.mpr ((settled t mem).trans granted.later)
  have sent : ((link.acquire net r.method).send net r n).2.own = link.own ++ [now] := by
    simp [send, write, granted.own, now]
  refine ⟨granted.writeLimit.trans paced.writeLimit, ⟨now - window, ?_, ?_⟩, ?_⟩
  · exact sub_le_sub_right (clock_le_send r n _) _
  · have fresh : prune (now - window) [now] = [now] := by
      simp [prune, window, seconds]
    rw [sent, prune_append, fresh, ← known]
    exact granted.bucket
  · rw [written, sent, ← List.append_assoc]
    show WithinOpen limit window ((link.acquire net r.method).earlier ++ link.own ++ [now])
    rw [granted.earlier]
    refine paced.law.append ?_
    have room := granted.room
    rw [written, prune_append, gone, List.nil_append, ← known]
    exact room.trans_eq paced.writeLimit

theorem paced_renew (paced : Paced net (safely writeLimitPerMinute) link) :
    Paced net (safely writeLimitPerMinute) link.renew :=
  ⟨rfl, ⟨_, le_rfl, rfl⟩, by rw [written, renew]; simpa using paced.law⟩

end Link
/-! What a client keeps. -/

/-- A property of what lies beyond a client is kept by its pauses and by some requests. -/
structure Client.Keeps {σ : Type} (c : Client σ) (asks : Request → Prop) (P : σ → Prop) : Prop where
  pauses : ∀ d far, P far → P (c.pause d far)
  sends : ∀ r n far, asks r → P far → P (c.send r n (c.acquire r.method far)).2

namespace Client.Keeps
variable {σ : Type} {c : Client σ} {asks : Request → Prop} {P : σ → Prop} (keeps : c.Keeps asks P)
include keeps

theorem attempts {r : Request} (asked : asks r) (left : List Nat) (last : Option MxrouteError)
    {far : σ} (h : P far) : P (c.attempts r left last far).2 := by
  induction left generalizing last far with
  | nil => exact h
  | cons attempt rest ih =>
      have sent := keeps.sends r attempt far asked h
      rw [Client.attempts]
      split
      · rename_i failed
        rw [failed] at sent
        refine ih _ ?_
        unfold backOff
        split
        · exact keeps.pauses _ _ sent
        · exact sent
      · rename_i answered
        rw [answered] at sent
        split
        · split
          · exact sent
          · exact ih _ (keeps.pauses _ _ sent)
        · exact sent

theorem request {r : Request} (asked : asks r) {far : σ} (h : P far) : P (c.request r far).2 :=
  keeps.attempts asked (List.range' 1 maxAttempts) none h

theorem call {r : Request} (asked : asks r) {α : Type} (decode : Json → Except Raised α) {far : σ}
    (h : P far) : P (c.call r decode far).2 := keeps.request asked h

end Client.Keeps

variable {τ : Type} {net : Network τ} {limit : Nat}

theorem Network.client_reads :
    net.client.Keeps (fun r => r.method.isWrite = false) (Link.Paced net limit) where
  pauses d _ paced := paced.sleep d
  sends _ n _ read paced := paced.read read n

theorem Network.client_writes : net.client.Keeps (fun _ => True)
    fun link => link.Paced net limit ∧ link.Settled net where
  pauses d _ h := ⟨h.1.sleep d, h.2.later rfl (net.clock_le_sleep d _)⟩
  sends r n link _ h := by
    have granted := Link.granted_of_acquire net r.method link
    refine ⟨?_, h.2.later granted.earlier (granted.later.trans (Link.clock_le_send r n _))⟩
    cases write : r.method.isWrite with
    | true => exact h.1.write h.2 write n
    | false => exact h.1.read write n

end Emaild.Mxroute
