import Emaild.Mxroute.Pacing

/-!
The limiter of one client over whole sequences of calls. What the clock shows at each pass of
a call's loop is an input: it never goes back, and nothing else is asked of it.
-/
namespace Emaild.Mxroute
open SlidingWindow

namespace RateLimiter
variable {l : RateLimiter} {isWrite : Bool} {now : Time}

theorem pass_of_room (room : (l.kept isWrite now).length < l.limit isWrite) :
    l.pass isWrite now = (l.setBucket isWrite (l.kept isWrite now ++ [now]), none) :=
  dif_neg room.not_ge

theorem pass_of_full (full : l.limit isWrite ≤ (l.kept isWrite now).length) :
    ∃ oldest rest, l.kept isWrite now = oldest :: rest ∧ l.pass isWrite now =
      (l.setBucket isWrite (oldest :: rest), some (window - (now - oldest) + 50000)) := by
  obtain ⟨oldest, rest, bucket⟩ :=
    List.exists_cons_of_length_pos ((l.limit_pos isWrite).trans_le full)
  refine ⟨oldest, rest, bucket, ?_⟩
  rw [pass, dif_pos full]
  simp only [bucket, List.head_cons]

theorem bucket_setBucket_ne {other : Bool} (differs : other ≠ isWrite) (times : List Time) :
    (l.setBucket isWrite times).bucket other = l.bucket other := by
  cases isWrite <;> cases other <;> first | rfl | exact absurd rfl differs

end RateLimiter

/-- A call of `acquire`: the budget that its method draws on, and what the clock shows at the
passes of its loop. -/
structure Call where
  isWrite : Bool
  readings : List Time

/-- A limiter, with the times at which it has granted calls of either kind. -/
structure Ledger where
  limiter : RateLimiter
  reads : List Time := []
  writes : List Time := []

namespace Ledger
variable (s : Ledger)

def grants (isWrite : Bool) : List Time := if isWrite then s.writes else s.reads

/-- A call has been granted. -/
def grant (isWrite : Bool) (now : Time) : Ledger :=
  if isWrite then { s with writes := s.writes ++ [now] } else { s with reads := s.reads ++ [now] }

/-- `acquire`: passes until one is granted. The readings may end while the call still waits. -/
def acquire (isWrite : Bool) : List Time → Ledger → Ledger
  | [], s => s
  | now :: later, s =>
      match s.limiter.pass isWrite now with
      | (limiter, none) => { s with limiter := limiter }.grant isWrite now
      | (limiter, some _) => acquire isWrite later { s with limiter := limiter }

/-- The calls one after the other: a lock keeps them apart. -/
def run (calls : List Call) : Ledger := calls.foldl (fun s c => s.acquire c.isWrite c.readings) s

@[simp] theorem grants_grant (isWrite : Bool) (now : Time) (other : Bool) :
    (s.grant isWrite now).grants other =
      if other = isWrite then s.grants other ++ [now] else s.grants other := by
  cases isWrite <;> cases other <;> rfl

@[simp] theorem grants_limiter (limiter : RateLimiter) (k : Bool) :
    Ledger.grants { s with limiter := limiter } k = s.grants k := rfl

@[simp] theorem limiter_grant (isWrite : Bool) (now : Time) :
    (s.grant isWrite now).limiter = s.limiter := by
  cases isWrite <;> rfl

/-- What a pass of a call does to the ledger. -/
def pass (isWrite : Bool) (now : Time) : Ledger :=
  match s.limiter.pass isWrite now with
  | (limiter, none) => { s with limiter := limiter }.grant isWrite now
  | (limiter, some _) => { s with limiter := limiter }

variable {s} {isWrite : Bool} {now : Time}

theorem acquire_of_room (room : (s.limiter.kept isWrite now).length < s.limiter.limit isWrite)
    (later : List Time) : s.acquire isWrite (now :: later) = s.pass isWrite now := by
  rw [acquire, pass, RateLimiter.pass_of_room room]

theorem acquire_of_full (full : s.limiter.limit isWrite ≤ (s.limiter.kept isWrite now).length)
    (later : List Time) :
    s.acquire isWrite (now :: later) = (s.pass isWrite now).acquire isWrite later := by
  obtain ⟨oldest, rest, _, waits⟩ := RateLimiter.pass_of_full full
  rw [acquire, pass, waits]

/-- A call makes some of its passes, from the first on. -/
theorem acquire_eq_passes (isWrite : Bool) (readings : List Time) (s : Ledger) :
    ∃ made, made <+: readings ∧
      s.acquire isWrite readings = made.foldl (fun s now => s.pass isWrite now) s := by
  induction readings generalizing s with
  | nil => exact ⟨[], List.nil_prefix, rfl⟩
  | cons now later ih =>
      rcases lt_or_ge (s.limiter.kept isWrite now).length (s.limiter.limit isWrite) with room | full
      · exact ⟨[now], ⟨later, rfl⟩, acquire_of_room room later⟩
      · obtain ⟨made, first, same⟩ := ih (s.pass isWrite now)
        exact ⟨now :: made, List.cons_prefix_cons.mpr ⟨rfl, first⟩,
          (acquire_of_full full later).trans same⟩

/-- So does a run, in the order of the clock. -/
theorem run_eq_passes (calls : List Call) (s : Ledger) :
    ∃ made : List (Bool × Time), (made.map Prod.snd).Sublist (calls.flatMap Call.readings) ∧
      s.run calls = made.foldl (fun s p => s.pass p.1 p.2) s := by
  induction calls generalizing s with
  | nil => exact ⟨[], .slnil, rfl⟩
  | cons c calls ih =>
      obtain ⟨first, within, same⟩ := acquire_eq_passes c.isWrite c.readings s
      obtain ⟨rest, within', same'⟩ := ih (s.acquire c.isWrite c.readings)
      refine ⟨first.map (c.isWrite, ·) ++ rest, ?_, ?_⟩
      · rw [List.map_append, List.map_map, List.flatMap_cons]
        exact List.Sublist.append (by simpa using within.sublist) within'
      · rw [List.foldl_append, List.foldl_map, ← same, ← same']
        rfl

/-- The ledger of a limiter that has granted what the ledger says, at a time. -/
structure Kept (s : Ledger) (now : Time) : Prop where
  ordered : ∀ k, (s.grants k).Pairwise (· ≤ ·)
  past : ∀ k, ∀ t ∈ s.grants k, t ≤ now
  bucket : ∀ k, ∃ cutoff, cutoff ≤ now - window ∧ s.limiter.bucket k = prune cutoff (s.grants k)
  spaced : ∀ k, Spaced (s.limiter.limit k) window (s.grants k)

theorem Kept.later {now later : Time} (h : s.Kept now) (forward : now ≤ later) : s.Kept later where
  ordered := h.ordered
  past k t mem := (h.past k t mem).trans forward
  bucket k :=
    let ⟨cutoff, early, same⟩ := h.bucket k
    ⟨cutoff, early.trans (sub_le_sub_right forward window), same⟩
  spaced := h.spaced

/-- A pass counts exactly the grants of its kind of the last minute. -/
theorem Kept.kept {now : Time} (h : s.Kept now) (isWrite : Bool) :
    s.limiter.kept isWrite now = prune (now - window) (s.grants isWrite) := by
  obtain ⟨cutoff, early, same⟩ := h.bucket isWrite
  rw [RateLimiter.kept_eq_prune, same, prune_prune early]

theorem Kept.pass {now : Time} (h : s.Kept now) (isWrite : Bool) :
    (s.pass isWrite now).Kept now := by
  have counted := h.kept isWrite
  rcases lt_or_ge (s.limiter.kept isWrite now).length (s.limiter.limit isWrite) with room | full
  · rw [Ledger.pass, RateLimiter.pass_of_room room]
    have fresh : prune (now - window) [now] = [now] := by
      simp [prune, window, seconds]
    refine ⟨fun k => ?_, fun k => ?_, fun k => ?_, fun k => ?_⟩ <;> by_cases same : k = isWrite
    · subst same
      simp only [grants_grant, if_true]
      exact List.pairwise_append.mpr
        ⟨h.ordered k, List.pairwise_singleton .., by simpa using h.past k⟩
    · simpa only [grants_grant, grants_limiter, if_neg same] using h.ordered k
    · subst same
      simpa [or_imp, forall_and] using h.past k
    · simpa only [grants_grant, grants_limiter, if_neg same] using h.past k
    · subst same
      refine ⟨now - window, le_rfl, ?_⟩
      simp only [limiter_grant, RateLimiter.bucket_setBucket, grants_grant, if_true]
      rw [counted, prune_append, fresh]
      rfl
    · simpa only [limiter_grant, grants_grant, grants_limiter, if_neg same,
        RateLimiter.bucket_setBucket_ne same] using h.bucket k
    · subst same
      simp only [limiter_grant, RateLimiter.limit_setBucket, grants_grant, if_true]
      exact (h.spaced k).append (h.ordered k) (counted ▸ room)
    · simpa only [limiter_grant, RateLimiter.limit_setBucket, grants_grant, grants_limiter,
        if_neg same] using h.spaced k
  · obtain ⟨oldest, rest, kept, waits⟩ := RateLimiter.pass_of_full full
    rw [Ledger.pass, waits]
    refine ⟨h.ordered, h.past, fun k => ?_, fun k => ?_⟩
    · by_cases same : k = isWrite
      · subst same
        refine ⟨now - window, le_rfl, ?_⟩
        simp only [RateLimiter.bucket_setBucket]
        exact kept.symm.trans counted
      · simpa only [grants_limiter, RateLimiter.bucket_setBucket_ne same] using h.bucket k
    · simpa only [grants_limiter, RateLimiter.limit_setBucket] using h.spaced k

theorem limit_pass (s : Ledger) (isWrite : Bool) (now : Time) (k : Bool) :
    (s.pass isWrite now).limiter.limit k = s.limiter.limit k := by
  rcases lt_or_ge (s.limiter.kept isWrite now).length (s.limiter.limit isWrite) with room | full
  · rw [Ledger.pass, RateLimiter.pass_of_room room, limiter_grant, RateLimiter.limit_setBucket]
  · obtain ⟨oldest, rest, _, waits⟩ := RateLimiter.pass_of_full full
    rw [Ledger.pass, waits, RateLimiter.limit_setBucket]

theorem limit_run (calls : List Call) (s : Ledger) (k : Bool) :
    (s.run calls).limiter.limit k = s.limiter.limit k := by
  obtain ⟨made, -, same⟩ := run_eq_passes calls s
  rw [same]
  clear same
  induction made generalizing s with
  | nil => rfl
  | cons p made ih => exact (ih _).trans (limit_pass s p.1 p.2 k)

theorem Kept.passes {now later : Time} (h : s.Kept now) (forward : now ≤ later)
    {made : List (Bool × Time)} (ordered : (now :: made.map Prod.snd).Pairwise (· ≤ ·))
    (past : ∀ p ∈ made, p.2 ≤ later) : (made.foldl (fun s p => s.pass p.1 p.2) s).Kept later := by
  induction made generalizing s now with
  | nil => exact h.later forward
  | cons p made ih =>
      rw [List.map_cons, List.pairwise_cons, List.forall_mem_cons] at ordered
      exact ih ((h.later ordered.1.1).pass p.1) (past p List.mem_cons_self) ordered.2
        fun q mem => past q (List.mem_cons_of_mem _ mem)

/-! Neither kind of call touches what the other one has. -/

/-- The ledgers agree on one kind of call. -/
structure Agrees (k : Bool) (s s' : Ledger) : Prop where
  limit : s.limiter.limit k = s'.limiter.limit k
  bucket : s.limiter.bucket k = s'.limiter.bucket k
  grants : s.grants k = s'.grants k

theorem Agrees.pass {k : Bool} {s s' : Ledger} (h : Agrees k s s') (now : Time) :
    Agrees k (s.pass k now) (s'.pass k now) := by
  have kept : s.limiter.kept k now = s'.limiter.kept k now := by
    rw [RateLimiter.kept, h.bucket, RateLimiter.kept]
  rcases lt_or_ge (s.limiter.kept k now).length (s.limiter.limit k) with room | full
  · have room' := room
    rw [kept, h.limit] at room'
    rw [Ledger.pass, RateLimiter.pass_of_room room, Ledger.pass, RateLimiter.pass_of_room room']
    exact ⟨by simpa using h.limit, by simp [kept], by simp [h.grants]⟩
  · have full' := full
    rw [kept, h.limit] at full'
    obtain ⟨oldest, rest, bucket, waits⟩ := RateLimiter.pass_of_full full
    obtain ⟨oldest', rest', bucket', waits'⟩ := RateLimiter.pass_of_full full'
    rw [Ledger.pass, waits, Ledger.pass, waits']
    exact ⟨by simpa using h.limit, by simp [← bucket, ← bucket', kept], h.grants⟩

theorem agrees_pass_ne {k isWrite : Bool} (differs : k ≠ isWrite) (s : Ledger) (now : Time) :
    Agrees k (s.pass isWrite now) s := by
  rcases lt_or_ge (s.limiter.kept isWrite now).length (s.limiter.limit isWrite) with room | full
  · rw [Ledger.pass, RateLimiter.pass_of_room room]
    exact ⟨by simp, by simp [RateLimiter.bucket_setBucket_ne differs], by simp [differs]⟩
  · obtain ⟨oldest, rest, _, waits⟩ := RateLimiter.pass_of_full full
    rw [Ledger.pass, waits]
    exact ⟨by simp, by simp [RateLimiter.bucket_setBucket_ne differs], rfl⟩

theorem Agrees.trans {k : Bool} {s s' s'' : Ledger} (h : Agrees k s s') (h' : Agrees k s' s'') :
    Agrees k s s'' :=
  ⟨h.limit.trans h'.limit, h.bucket.trans h'.bucket, h.grants.trans h'.grants⟩

theorem Agrees.acquire {k : Bool} {s s' : Ledger} (h : Agrees k s s') (readings : List Time) :
    Agrees k (s.acquire k readings) (s'.acquire k readings) := by
  induction readings generalizing s s' with
  | nil => exact h
  | cons now later ih =>
      have kept : s.limiter.kept k now = s'.limiter.kept k now := by
        rw [RateLimiter.kept, h.bucket, RateLimiter.kept]
      rcases lt_or_ge (s.limiter.kept k now).length (s.limiter.limit k) with room | full
      · rw [acquire_of_room room, acquire_of_room (by rwa [← kept, ← h.limit])]
        exact h.pass now
      · rw [acquire_of_full full, acquire_of_full (by rwa [← kept, ← h.limit])]
        exact ih (h.pass now)

theorem agrees_acquire_ne {k isWrite : Bool} (differs : k ≠ isWrite) (readings : List Time)
    (s : Ledger) : Agrees k (s.acquire isWrite readings) s := by
  obtain ⟨made, -, same⟩ := acquire_eq_passes isWrite readings s
  rw [same]
  clear same
  induction made generalizing s with
  | nil => exact ⟨rfl, rfl, rfl⟩
  | cons now made ih => exact (ih (s.pass isWrite now)).trans (agrees_pass_ne differs s now)

/-- The calls of one kind are granted as they would be if there were no others. -/
theorem Agrees.run {k : Bool} {s s' : Ledger} (h : Agrees k s s') (calls : List Call) :
    Agrees k (s.run calls) (s'.run (calls.filter fun c => c.isWrite = k)) := by
  induction calls generalizing s s' with
  | nil => exact h
  | cons c calls ih =>
      by_cases same : c.isWrite = k
      · subst same
        rw [List.filter_cons_of_pos (by simp)]
        exact ih (h.acquire c.readings)
      · rw [List.filter_cons_of_neg (by simpa using same)]
        exact ih ((agrees_acquire_ne (Ne.symm same) c.readings s).trans h)

theorem exists_later (times : List Time) : ∃ now, ∀ t ∈ times, t ≤ now := by
  induction times with
  | nil => exact ⟨0, nofun⟩
  | cons t times ih =>
      obtain ⟨now, past⟩ := ih
      refine ⟨max t now, List.forall_mem_cons.mpr ⟨le_max_left .., fun t' mem => ?_⟩⟩
      exact (past t' mem).trans (le_max_right ..)

/-- What is granted by a limiter that is new: the law of every window, for either kind of call
by itself; and a call that waits knows how long. -/
theorem acquire_paces (l : RateLimiter) (fresh : ∀ k, l.bucket k = []) {calls : List Call}
    (ordered : (calls.flatMap Call.readings).Pairwise (· ≤ ·)) :
    (∀ k, Spaced (l.limit k) window ((run ⟨l, [], []⟩ calls).grants k)) ∧
    (∀ k, (run ⟨l, [], []⟩ calls).grants k =
      (run ⟨l, [], []⟩ (calls.filter fun c => c.isWrite = k)).grants k) ∧
    ∀ k now, (∀ t ∈ calls.flatMap Call.readings, t ≤ now) →
      (run ⟨l, [], []⟩ calls).limiter.kept k now =
        prune (now - window) ((run ⟨l, [], []⟩ calls).grants k) ∧
      ∀ limiter wait, (run ⟨l, [], []⟩ calls).limiter.pass k now = (limiter, some wait) →
        ∃ oldest rest, limiter.bucket k = oldest :: rest ∧
          wait = window - (now - oldest) + 50000 ∧ 0 < wait := by
  obtain ⟨made, sub, same⟩ := run_eq_passes calls ⟨l, [], []⟩
  have start : ∀ t, (⟨l, [], []⟩ : Ledger).Kept t := fun t =>
    ⟨by simp [grants], by simp [grants], fun k => ⟨_, le_rfl, by simp [fresh, grants, prune]⟩,
      fun k => by simpa [grants] using spaced_nil (l.limit k) window⟩
  have kept : ∀ now, (∀ t ∈ calls.flatMap Call.readings, t ≤ now) →
      (run ⟨l, [], []⟩ calls).Kept now := by
    intro now past
    rw [same]
    cases made with
    | nil => exact start now
    | cons p made =>
        have early : ∀ q ∈ p :: made, q.2 ≤ now := fun q mem =>
          past q.2 (sub.subset (List.mem_map_of_mem mem))
        exact (start p.2).passes (early p List.mem_cons_self)
          (List.pairwise_cons.mpr ⟨by simpa using (List.pairwise_cons.mp (ordered.sublist sub)).1,
            ordered.sublist sub⟩) early
  refine ⟨fun k => ?_, fun k => (Agrees.run ⟨rfl, rfl, rfl⟩ calls).grants, fun k now past => ?_⟩
  · obtain ⟨now, past⟩ := exists_later (calls.flatMap Call.readings)
    have spaced := (kept now past).spaced k
    rwa [limit_run] at spaced
  · refine ⟨(kept now past).kept k, fun limiter wait waits => ?_⟩
    generalize (run ⟨l, [], []⟩ calls).limiter = l' at waits
    rcases lt_or_ge (l'.kept k now).length (l'.limit k) with room | full
    · rw [RateLimiter.pass_of_room room] at waits
      cases waits
    · obtain ⟨oldest, rest, bucket, pass⟩ := RateLimiter.pass_of_full full
      rw [pass] at waits
      cases waits
      have recent : oldest ∈ l'.kept k now := bucket ▸ List.mem_cons_self
      have recent : now - oldest < window := of_decide_eq_true (List.mem_filter.mp recent).2
      exact ⟨oldest, rest, by simp, rfl, add_pos (sub_pos.mpr recent) (by decide)⟩

end Ledger

/-! Two writes within a minute, of a client that may send one. -/
namespace Sample

def frugal : RateLimiter where
  readLimit := 2
  writeLimit := 1
  writeLimit_pos := Nat.one_pos

def twoWrites : List Call :=
  [⟨false, [0]⟩, ⟨true, [0]⟩, ⟨true, [seconds 1, seconds 61]⟩, ⟨false, [seconds 61]⟩]

end Sample

/-- The second one waits; a read that comes with it does not. -/
theorem second_write_waits :
    (Ledger.run ⟨Sample.frugal, [], []⟩ Sample.twoWrites).writes = [0, seconds 61] ∧
    (Ledger.run ⟨Sample.frugal, [], []⟩ Sample.twoWrites).reads = [0, seconds 61] ∧
    Spaced 1 window ((Ledger.run ⟨Sample.frugal, [], []⟩ Sample.twoWrites).grants true) :=
  ⟨by decide, by decide, (Ledger.acquire_paces Sample.frugal (by decide) (by decide)).1 true⟩

/-! A client's own calls are such calls. -/
namespace Link
variable {τ : Type} (net : Network τ)

/-- What the clock shows at the passes of `acquire`. -/
def readings (isWrite : Bool) : Nat → Link τ → List Time
  | 0, _ => []
  | fuel + 1, link =>
      net.clock link.far :: match link.limiter.pass isWrite (net.clock link.far) with
        | (_, none) => []
        | (limiter, some wait) =>
            readings isWrite fuel { link with limiter := limiter, far := net.sleep wait link.far }

/-- A client's limiter after a call is as the ledger says. -/
theorem limiter_passes (isWrite : Bool) (fuel : Nat) (link : Link τ) (s : Ledger)
    (same : s.limiter = link.limiter) :
    (link.passes net isWrite fuel).limiter =
      (s.acquire isWrite (readings net isWrite fuel link)).limiter := by
  induction fuel generalizing link s with
  | zero => exact same.symm
  | succ fuel ih =>
      rw [passes, readings, Ledger.acquire, same]
      cases link.limiter.pass isWrite (net.clock link.far) with
      | mk limiter waits =>
          cases waits with
          | none =>
              dsimp only
              rw [Ledger.limiter_grant]
          | some wait => exact ih _ _ rfl

theorem readings_ordered (isWrite : Bool) (fuel : Nat) (link : Link τ) :
    (net.clock link.far :: readings net isWrite fuel link).Pairwise (· ≤ ·) := by
  induction fuel generalizing link with
  | zero => exact List.pairwise_singleton ..
  | succ fuel ih =>
      rw [readings]
      cases link.limiter.pass isWrite (net.clock link.far) with
      | mk limiter waits =>
          cases waits with
          | none => simp
          | some wait =>
              have rest := ih { link with limiter := limiter, far := net.sleep wait link.far }
              have slept := net.clock_le_sleep wait link.far
              rw [List.pairwise_cons] at rest
              have after : ∀ t ∈ readings net isWrite fuel
                  { link with limiter := limiter, far := net.sleep wait link.far },
                  net.clock link.far ≤ t := fun t mem => slept.trans (rest.1 t mem)
              simp only [List.pairwise_cons, List.forall_mem_cons]
              exact ⟨⟨le_rfl, after⟩, after, rest.2⟩

end Link
end Emaild.Mxroute
