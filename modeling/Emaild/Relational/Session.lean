import Mathlib.Logic.Basic

/-!
A unit of work on a store: what is committed, what the open transaction sees,
and whether a rollback has expired the objects loaded before it. Programs over a
session may fail; `sessionScope` commits what a program leaves behind when it
returns and discards it when it fails. Another transaction may commit while the
session is open (`interfere`); under READ COMMITTED its change is visible to the
next statement, and it survives a rollback of this one.
-/
namespace Relational
universe u v w
variable {σ : Type u} {ε : Type u} {α β : Type u}

/-- A sequence of fallible steps succeeds through the success of each. -/
theorem ok_of_bind_ok {x : Except ε α} {f : α → Except ε β} {b : β}
    (h : x >>= f = .ok b) : ∃ a, x = .ok a ∧ f a = .ok b := by
  cases x with
  | error e => cases h
  | ok a => exact ⟨a, rfl, h⟩

/-- What a sequence of results is made of. -/
theorem mem_of_mapM_ok {f : α → Except ε β} {as : List α} {bs : List β}
    (h : as.mapM f = .ok bs) (b : β) : b ∈ bs ↔ ∃ a ∈ as, f a = .ok b := by
  induction as generalizing bs with
  | nil =>
      cases h
      simp
  | cons a as ih =>
      rw [List.mapM_cons] at h
      obtain ⟨first, found, h⟩ := ok_of_bind_ok h
      obtain ⟨rest, later, h⟩ := ok_of_bind_ok h
      cases h
      simp [ih later, found, eq_comm (a := b)]

theorem mapM_ok_iff {f : α → Except ε β} {as : List α} :
    (∃ bs, as.mapM f = .ok bs) ↔ ∀ a ∈ as, ∃ b, f a = .ok b := by
  induction as with
  | nil => simp [pure, Except.pure]
  | cons a as ih =>
      rw [List.forall_mem_cons, ← ih, List.mapM_cons]
      constructor
      · rintro ⟨bs, h⟩
        obtain ⟨first, found, h⟩ := ok_of_bind_ok h
        obtain ⟨rest, later, h⟩ := ok_of_bind_ok h
        exact ⟨⟨first, found⟩, rest, later⟩
      · rintro ⟨⟨first, found⟩, rest, later⟩
        exact ⟨first :: rest, by rw [found, later]; rfl⟩

/-- What a computation raises has a property. -/
structure OnlyRaises (P : ε → Prop) (x : Except ε α) : Prop where
  raises : ∀ e, x = .error e → P e

namespace OnlyRaises
variable {P Q : ε → Prop} {x : Except ε α} {f : α → Except ε β}

theorem ok (a : α) : OnlyRaises P (.ok a : Except ε α) := ⟨fun _ h => nomatch h⟩

theorem pure (a : α) : OnlyRaises P (Pure.pure a : Except ε α) := ⟨fun _ h => nomatch h⟩

theorem error {e : ε} (h : P e) : OnlyRaises P (.error e : Except ε α) := by
  refine ⟨?_⟩
  rintro _ ⟨⟩
  exact h

theorem mono (weaker : ∀ e, P e → Q e) (only : OnlyRaises P x) : OnlyRaises Q x :=
  ⟨fun e failed => weaker e (only.raises e failed)⟩

theorem bind (first : OnlyRaises P x) (rest : ∀ a, OnlyRaises P (f a)) :
    OnlyRaises P (x >>= f) := by
  refine ⟨fun e failed => ?_⟩
  cases x with
  | error e' =>
      cases failed
      exact first.raises e rfl
  | ok a => exact (rest a).raises e failed

theorem mapM {as : List α} (each : ∀ a, OnlyRaises P (f a)) : OnlyRaises P (as.mapM f) := by
  induction as with
  | nil => exact .pure _
  | cons a as ih =>
      rw [List.mapM_cons]
      exact .bind (each a) fun _ => .bind ih fun _ => .pure _

end OnlyRaises

structure Session (σ : Type u) where
  committed : σ
  working : σ
  expired : Bool

def Session.begin (s : σ) : Session σ := ⟨s, s, false⟩

abbrev Tx (σ ε : Type u) := ExceptT ε (StateM (Session σ))

namespace Tx

def exec (x : Tx σ ε α) (s : Session σ) : Except ε α × Session σ := x.run.run s

def lift (r : Except ε α) : Tx σ ε α := fun s => (r, s)

def look : Tx σ ε (Session σ) := fun s => (.ok s, s)

def write (f : σ → σ) : Tx σ ε PUnit :=
  fun s => (.ok ⟨⟩, { s with working := f s.working })

def interfere (f : σ → σ) : Tx σ ε PUnit :=
  fun s => (.ok ⟨⟩, { s with committed := f s.committed, working := f s.working })

def rollback : Tx σ ε PUnit :=
  fun s => (.ok ⟨⟩, ⟨s.committed, s.committed, true⟩)

/-- A flush. One that the store refuses rolls the transaction back. -/
def flush (f : σ → Except ε σ) : Tx σ ε PUnit := fun s =>
  match f s.working with
  | .ok working => (.ok ⟨⟩, { s with working := working })
  | .error e => (.error e, ⟨s.committed, s.committed, true⟩)

/-- `try: … except …`: what the program leaves behind stays, however it ends. -/
def attempt (x : Tx σ ε α) : Tx σ ε (Except ε α) := fun s => (.ok (x.exec s).1, (x.exec s).2)

@[simp] theorem exec_lift (r : Except ε α) (s : Session σ) :
    (lift r : Tx σ ε α).exec s = (r, s) := rfl

@[simp] theorem exec_look (s : Session σ) : (look : Tx σ ε _).exec s = (.ok s, s) := rfl

@[simp] theorem exec_write (f : σ → σ) (s : Session σ) :
    (write f : Tx σ ε _).exec s = (.ok ⟨⟩, { s with working := f s.working }) := rfl

@[simp] theorem exec_interfere (f : σ → σ) (s : Session σ) :
    (interfere f : Tx σ ε _).exec s =
      (.ok ⟨⟩, { s with committed := f s.committed, working := f s.working }) := rfl

@[simp] theorem exec_rollback (s : Session σ) :
    (rollback : Tx σ ε _).exec s = (.ok ⟨⟩, ⟨s.committed, s.committed, true⟩) := rfl

theorem exec_flush (f : σ → Except ε σ) (s : Session σ) :
    (flush f).exec s = match f s.working with
      | .ok working => (.ok ⟨⟩, { s with working := working })
      | .error e => (.error e, ⟨s.committed, s.committed, true⟩) := rfl

theorem exec_attempt (x : Tx σ ε α) (s : Session σ) :
    (attempt x).exec s = (.ok (x.exec s).1, (x.exec s).2) := rfl

@[simp] theorem exec_pure (a : α) (s : Session σ) :
    (pure a : Tx σ ε α).exec s = (.ok a, s) := rfl

@[simp] theorem exec_throw (e : ε) (s : Session σ) :
    (throw e : Tx σ ε α).exec s = (.error e, s) := rfl

theorem exec_bind (x : Tx σ ε α) (f : α → Tx σ ε β) (s : Session σ) :
    (x >>= f).exec s =
      match x.exec s with
      | (.ok a, s') => (f a).exec s'
      | (.error e, s') => (.error e, s') := by
  show (ExceptT.bindCont f (x.run.run s).1).run (x.run.run s).2 = _
  unfold exec
  cases h : x.run.run s with
  | mk r s' => cases r <;> rfl

theorem exec_bind_ok {x : Tx σ ε α} {f : α → Tx σ ε β} {s s' : Session σ} {a : α}
    (h : x.exec s = (.ok a, s')) : (x >>= f).exec s = (f a).exec s' := by
  rw [exec_bind, h]

theorem exec_bind_error {x : Tx σ ε α} {f : α → Tx σ ε β} {s s' : Session σ} {e : ε}
    (h : x.exec s = (.error e, s')) : (x >>= f).exec s = (.error e, s') := by
  rw [exec_bind, h]

/-- A sequence that fails does so in its first part or in its second. -/
theorem exec_of_bind_error {x : Tx σ ε α} {f : α → Tx σ ε β} {s s' : Session σ} {e : ε}
    (h : (x >>= f).exec s = (.error e, s')) :
    x.exec s = (.error e, s') ∨ ∃ a t, x.exec s = (.ok a, t) ∧ (f a).exec t = (.error e, s') := by
  rw [exec_bind] at h
  split at h
  · rename_i a t first
    exact .inr ⟨a, t, first, h⟩
  · rename_i e' t first
    cases h
    exact .inl first

/-- Whatever the program writes, and whatever is committed beside it, keeps a
relation to an earlier store. -/
def Keeps (R : σ → σ → Prop) (x : Tx σ ε α) : Prop :=
  ∀ base s, R base s.committed → R base s.working →
    R base (x.exec s).2.committed ∧ R base (x.exec s).2.working

namespace Keeps
variable {R : σ → σ → Prop} {x : Tx σ ε α} {f : α → Tx σ ε β}

theorem pure (a : α) : Keeps R (Pure.pure a : Tx σ ε α) := fun _ _ h h' => ⟨h, h'⟩

theorem throw (e : ε) : Keeps R (MonadExcept.throw e : Tx σ ε α) := fun _ _ h h' => ⟨h, h'⟩

theorem lift (r : Except ε α) : Keeps R (lift r : Tx σ ε α) := fun _ _ h h' => ⟨h, h'⟩

theorem look : Keeps R (look : Tx σ ε _) := fun _ _ h h' => ⟨h, h'⟩

theorem rollback : Keeps R (rollback : Tx σ ε _) := fun _ _ h _ => ⟨h, h⟩

theorem write {g : σ → σ} (step : ∀ base t, R base t → R base (g t)) :
    Keeps R (write g : Tx σ ε _) :=
  fun _ _ h h' => ⟨h, step _ _ h'⟩

theorem interfere {g : σ → σ} (step : ∀ base t, R base t → R base (g t)) :
    Keeps R (interfere g : Tx σ ε _) :=
  fun _ _ h h' => ⟨step _ _ h, step _ _ h'⟩

theorem bind (first : Keeps R x) (rest : ∀ a, Keeps R (f a)) : Keeps R (x >>= f) := by
  intro base s h h'
  have kept := first base s h h'
  rw [exec_bind]
  split
  · rename_i a s' run
    rw [run] at kept
    exact rest a base s' kept.1 kept.2
  · rename_i run
    rw [run] at kept
    exact kept

theorem flush {f : σ → Except ε σ} (step : ∀ base t t', R base t → f t = .ok t' → R base t') :
    Keeps R (flush f : Tx σ ε _) := by
  intro base s h h'
  rw [exec_flush]
  split
  · rename_i working flushed
    exact ⟨h, step base _ _ h' flushed⟩
  · exact ⟨h, h⟩

theorem attempt (keeps : Keeps R x) : Keeps R (attempt x) := keeps

end Keeps

/-- From a session on, a program leaves stores behind that have a property. -/
def Leaves (P : σ → Prop) (x : Tx σ ε α) (s : Session σ) : Prop :=
  P (x.exec s).2.committed ∧ P (x.exec s).2.working

namespace Leaves
variable {P : σ → Prop} {x : Tx σ ε α} {f : α → Tx σ ε β} {s : Session σ}

theorem of_keeps (keeps : x.Keeps fun _ => P) (h : P s.committed) (h' : P s.working) :
    x.Leaves P s := keeps s.committed s h h'

theorem bind_ok {a : α} {t : Session σ} (run : x.exec s = (.ok a, t)) (rest : (f a).Leaves P t) :
    (x >>= f).Leaves P s := by
  unfold Leaves
  rwa [exec_bind_ok run]

theorem bind (first : x.Leaves P s) (rest : ∀ a, (f a).Keeps fun _ => P) :
    (x >>= f).Leaves P s := by
  unfold Leaves at first ⊢
  rw [exec_bind]
  split
  · rename_i a t run
    rw [run] at first
    exact rest a t.committed t first.1 first.2
  · rename_i run
    rwa [run] at first

theorem bind_lift {r : Except ε α} (h : P s.committed) (h' : P s.working)
    (rest : ∀ a, r = .ok a → (f a).Leaves P s) : (Tx.lift r >>= f).Leaves P s := by
  cases r with
  | error e => exact ⟨h, h'⟩
  | ok a => exact bind_ok (exec_lift _ s) (rest a rfl)

end Leaves

/-- What a program raises has a property. -/
def Raises (P : ε → Prop) (x : Tx σ ε α) : Prop := ∀ s e s', x.exec s = (.error e, s') → P e

namespace Raises
variable {P : ε → Prop} {x : Tx σ ε α} {f : α → Tx σ ε β}

theorem lift {r : Except ε α} (h : OnlyRaises P r) : Raises P (lift r : Tx σ ε α) := by
  intro s e s' run
  exact h.raises e (congrArg Prod.fst run)

theorem throw {e : ε} (h : P e) : Raises P (MonadExcept.throw e : Tx σ ε α) := by
  intro s e' s' run
  cases run
  exact h

theorem of_ok (h : ∀ s, ∃ a s', x.exec s = (.ok a, s')) : Raises P x := by
  intro s e s' run
  obtain ⟨a, t, ok⟩ := h s
  cases ok.symm.trans run

theorem pure (a : α) : Raises P (Pure.pure a : Tx σ ε α) := of_ok fun s => ⟨a, s, rfl⟩

theorem flush {g : σ → Except ε σ} (h : ∀ s e, g s = .error e → P e) :
    Raises P (flush g : Tx σ ε _) := by
  intro s e s' run
  rw [exec_flush] at run
  split at run
  · cases run
  · rename_i e' refused
    cases run
    exact h _ _ refused

theorem bind (first : Raises P x) (rest : ∀ a, Raises P (f a)) : Raises P (x >>= f) := by
  intro s e s' run
  rcases exec_of_bind_error run with failed | ⟨a, t, _, failed⟩
  · exact first s e s' failed
  · exact rest a t e s' failed

end Raises

/-- However a program ends, the end has a property. -/
def Ensures (P : Except ε α → Prop) (x : Tx σ ε α) : Prop := ∀ s, P (x.exec s).1

namespace Ensures
variable {P : Except ε β → Prop} {x : Tx σ ε α} {f : α → Tx σ ε β}

theorem pure {b : β} (h : P (.ok b)) : Ensures P (Pure.pure b : Tx σ ε β) := fun _ => h

theorem throw {e : ε} (h : P (.error e)) : Ensures P (MonadExcept.throw e : Tx σ ε β) := fun _ => h

/-- What the first part may end with is known of the rest. -/
theorem andThen {Q : Except ε α → Prop} (first : Ensures Q x)
    (fails : ∀ e, Q (.error e) → P (.error e)) (rest : ∀ a, Q (.ok a) → Ensures P (f a)) :
    Ensures P (x >>= f) := by
  intro s
  have ends := first s
  rw [exec_bind]
  split
  · rename_i a t run
    rw [run] at ends
    exact rest a ends t
  · rename_i e t run
    rw [run] at ends
    exact fails e ends

theorem bind (first : Raises (fun e => P (.error e)) x) (rest : ∀ a, Ensures P (f a)) :
    Ensures P (x >>= f) := by
  refine andThen (Q := fun r => ∀ e, r = .error e → P (.error e)) (fun s e failed => ?_)
    (fun e fails => fails e rfl) fun a _ => rest a
  exact first s e (x.exec s).2 (Prod.ext failed rfl)

end Ensures
end Tx

/-- `async with session_scope() as session`: the result and the committed store. -/
def sessionScope (x : Tx σ ε α) (s : σ) : Except ε α × σ :=
  match x.exec (.begin s) with
  | (.ok a, s') => (.ok a, s'.working)
  | (.error e, s') => (.error e, s'.committed)

/-- A program that keeps a relation leaves a store behind that stands in it. -/
theorem sessionScope_keeps {R : σ → σ → Prop} {x : Tx σ ε α} (keeps : x.Keeps R) {s : σ}
    (refl : R s s) : R s (sessionScope x s).2 := by
  have kept := keeps s (.begin s) refl refl
  unfold sessionScope
  split
  · rename_i run
    rw [run] at kept
    exact kept.2
  · rename_i run
    rw [run] at kept
    exact kept.1

/-- A program leaves committed what it leaves in both copies of the store. -/
theorem Tx.Leaves.sessionScope {P : σ → Prop} {x : Tx σ ε α} {s : σ}
    (leaves : x.Leaves P (.begin s)) : P (Relational.sessionScope x s).2 := by
  unfold Relational.sessionScope
  split
  · rename_i run
    have left := leaves.2
    rwa [run] at left
  · rename_i run
    have left := leaves.1
    rwa [run] at left

theorem sessionScope_ok {x : Tx σ ε α} {s : σ} {a : α} {s' : Session σ}
    (h : x.exec (.begin s) = (.ok a, s')) : sessionScope x s = (.ok a, s'.working) := by
  rw [sessionScope, h]

theorem sessionScope_error {x : Tx σ ε α} {s : σ} {e : ε} {s' : Session σ}
    (h : x.exec (.begin s) = (.error e, s')) :
    sessionScope x s = (.error e, s'.committed) := by
  rw [sessionScope, h]

/-- A program that leaves both copies of the store alike leaves that store, however it ends. -/
theorem sessionScope_settled {x : Tx σ ε α} {s s' : σ} {result : Except ε α} {expired : Bool}
    (h : x.exec (.begin s) = (result, ⟨s', s', expired⟩)) : sessionScope x s = (result, s') := by
  rw [sessionScope, h]
  cases result <;> rfl

end Relational
