import Mathlib.Logic.Function.Basic
import Emaild.Text.Python
import Emaild.Transition.Reaches

/-!
Secrets that generate themselves on first boot. The processes that mount a volume share
one file; between any two steps of one the others may take theirs. The file is made and
filled in two steps, and a process may die between them.
-/
namespace Emaild.Secretstore
open Text Transition

/-- How a file is read in text mode: every kind of line end becomes one line feed. -/
def universalNewlines : List Char → List Char
  | [] => []
  | '\r' :: '\n' :: rest => '\n' :: universalNewlines rest
  | '\r' :: rest => '\n' :: universalNewlines rest
  | c :: rest => c :: universalNewlines rest

theorem universalNewlines_eq {text : List Char} (plain : '\r' ∉ text) :
    universalNewlines text = text := by
  fun_induction universalNewlines text with
  | case1 => rfl
  | case2 rest ih => simp at plain
  | case3 rest _ ih => simp at plain
  | case4 c rest _ _ ih => rw [ih fun mem => plain (List.mem_cons_of_mem _ mem)]

/-- `path.read_text().strip()` -/
def readBack (content : String) : String := strip (.ofList (universalNewlines content.toList))

/-- A factory returns a text, not empty and without surrounding whitespace. -/
structure Secret where
  text : String
  nonempty : text ≠ "" := by decide
  stripped : strip text = text := by decide

theorem readBack_secret (secret : Secret) (plain : '\r' ∉ secret.text.toList) :
    readBack secret.text = secret.text := by
  rw [readBack, universalNewlines_eq plain, String.ofList_toList, secret.stripped]

inductive Failure
  | secretStoreError (message : String)
  | osError (description : String)
  deriving DecidableEq

/-- `_read_if_present`, of what the file holds. -/
def readIfPresent (path : String) : Option String → Except Failure (Option String)
  | none => .ok none
  | some content =>
      if readBack content = "" then
        -- a half-finished write, not a valid secret
        .error (.secretStoreError (s!"{path} exists but is empty. Refusing to generate a " ++
          "replacement, because the original may still be needed to decrypt stored data. " ++
          "Restore it from your backup, or remove the file deliberately to start over."))
      else .ok (some (readBack content))

/-- Where a process is in `read_or_create`. -/
inductive Phase
  | idle
  | reading
  /-- There was no file: the directory is made and the factory called. -/
  | preparing
  | creating (value : Secret)
  /-- Somebody else was faster. -/
  | rereading
  | writing (value : Secret)

structure Store (P : Type) where
  file : Option String
  processes : P → Phase
  /-- How the calls have ended that have. -/
  results : List (P × Except Failure String)

inductive Action
  | start
  | read
  | prepare (value : Secret)
  | create
  | reread
  | write
  /-- The operating system refuses the next operation of the process. -/
  | fault (description : String)
  | crash

/-- What an operation raises that the operating system refuses. -/
def Phase.refusal (directory path description : String) : Phase → Option Failure
  | .idle => none
  | .reading | .rereading => some (.secretStoreError s!"cannot read {path}: {description}")
  | .preparing => some (.secretStoreError
      (s!"cannot create the secrets directory {directory}: {description}. " ++
        "Is the volume mounted, and writable by uid 10001?"))
  | .creating _ => some (.secretStoreError s!"cannot create {path}: {description}")
  | .writing _ => some (.osError description)

namespace Store
variable {P : Type} [DecidableEq P]

def moveTo (s : Store P) (p : P) (phase : Phase) : Store P :=
  { s with processes := Function.update s.processes p phase }

/-- A call ends. -/
def finish (s : Store P) (p : P) (result : Except Failure String) : Store P :=
  { s with results := s.results ++ [(p, result)] }.moveTo p .idle

/-- How a call goes on after it has looked at the file. -/
def afterRead (path : String) (s : Store P) (p : P) (absent : Store P) : Store P :=
  match readIfPresent path s.file with
  | .error e => s.finish p (.error e)
  | .ok (some value) => s.finish p (.ok value)
  | .ok none => absent

/-- What a step of a process does, if the process is there in `read_or_create`. -/
def step (directory path : String) (s : Store P) : P × Action → Option (Store P)
  | (p, .start) =>
      match s.processes p with
      | .idle => some (s.moveTo p .reading)
      | _ => none
  | (p, .read) =>
      match s.processes p with
      | .reading => some (s.afterRead path p (s.moveTo p .preparing))
      | _ => none
  | (p, .prepare value) =>
      match s.processes p with
      | .preparing => some (s.moveTo p (.creating value))
      | _ => none
  | (p, .create) =>
      match s.processes p, s.file with
      | .creating value, none => some ({ s with file := some "" }.moveTo p (.writing value))
      | .creating _, some _ => some (s.moveTo p .rereading)
      | _, _ => none
  | (p, .reread) =>
      match s.processes p with
      | .rereading => some (s.afterRead path p (s.finish p
          (.error (.secretStoreError s!"{path} appeared but could not be read"))))
      | _ => none
  | (p, .write) =>
      match s.processes p with
      | .writing value => some ({ s with file := some value.text }.finish p (.ok value.text))
      | _ => none
  | (p, .fault description) =>
      ((s.processes p).refusal directory path description).map fun e => s.finish p (.error e)
  | (p, .crash) => some (s.moveTo p .idle)

/-- A call looks at a file that holds something, at one that holds nothing, or at none. -/
theorem afterRead_cases (path : String) (s : Store P) (p : P) (absent : Store P) :
    (s.file = none ∧ s.afterRead path p absent = absent) ∨
    (∃ content, s.file = some content ∧ readBack content = "" ∧
      ∃ e, s.afterRead path p absent = s.finish p (.error e)) ∨
    ∃ content, s.file = some content ∧ readBack content ≠ "" ∧
      s.afterRead path p absent = s.finish p (.ok (readBack content)) := by
  unfold afterRead
  cases file : s.file with
  | none => exact .inl ⟨rfl, rfl⟩
  | some content =>
      by_cases empty : readBack content = ""
      · exact .inr (.inl ⟨content, rfl, empty, _, by rw [readIfPresent, if_pos empty]⟩)
      · exact .inr (.inr ⟨content, rfl, empty, by rw [readIfPresent, if_neg empty]⟩)

/-- The ways a step may go. -/
inductive Effect (s : Store P) (p : P) : Action → Store P → Prop
  | moved {act : Action} {phase : Phase} (quiet : ∀ value, phase ≠ .writing value)
      (prepared : ∀ value, phase = .creating value → act = .prepare value)
      (lost : phase = .rereading → s.file ≠ none)
      (alive : act = .crash ∨ ∀ value, s.processes p ≠ .writing value) :
      Effect s p act (s.moveTo p phase)
  | refused {description : String} (e : Failure) :
      Effect s p (.fault description) (s.finish p (.error e))
  | unreadable {act : Action} (e : Failure) (looks : act = .read ∨ act = .reread)
      (why : (∃ content, s.file = some content ∧ readBack content = "") ∨
        s.file = none ∧ s.processes p = .rereading) : Effect s p act (s.finish p (.error e))
  | found {act : Action} {content : String} (looks : act = .read ∨ act = .reread)
      (file : s.file = some content) (filled : readBack content ≠ "") :
      Effect s p act (s.finish p (.ok (readBack content)))
  | made {value : Secret} (phase : s.processes p = .creating value) (absent : s.file = none) :
      Effect s p .create ({ s with file := some "" }.moveTo p (.writing value))
  | filled {value : Secret} (phase : s.processes p = .writing value) :
      Effect s p .write ({ s with file := some value.text }.finish p (.ok value.text))

section Steps
variable {directory path : String} {s t : Store P} {p : P} {act : Action}

theorem effect_of_step (h : step directory path s (p, act) = some t) : Effect s p act t := by
  cases act with
  | start =>
      simp only [step] at h
      split at h <;> cases h
      rename_i phase
      exact .moved (by simp) (by simp) (by simp) (.inr (by simp [phase]))
  | read =>
      simp only [step] at h
      split at h
      swap
      · cases h
      rename_i phase
      obtain rfl := Option.some.inj h
      rcases afterRead_cases path s p (s.moveTo p .preparing) with
        ⟨_, same⟩ | ⟨content, file, empty, e, same⟩ | ⟨content, file, filled, same⟩
      · rw [same]
        exact .moved (by simp) (by simp) (by simp) (.inr (by simp [phase]))
      · rw [same]
        exact .unreadable e (.inl rfl) (.inl ⟨content, file, empty⟩)
      · rw [same]
        exact .found (.inl rfl) file filled
  | prepare value =>
      simp only [step] at h
      split at h <;> cases h
      rename_i phase
      refine .moved (by simp) (fun other same => ?_) (by simp) (.inr (by simp [phase]))
      cases same
      rfl
  | create =>
      simp only [step] at h
      split at h
      · rename_i value phase absent
        cases h
        exact .made phase absent
      · rename_i phase file
        cases h
        exact .moved (by simp) (by simp) (fun _ => by simp [file]) (.inr (by simp [phase]))
      · cases h
  | reread =>
      simp only [step] at h
      split at h
      swap
      · cases h
      rename_i phase
      obtain rfl := Option.some.inj h
      rcases afterRead_cases path s p (s.finish p
          (.error (.secretStoreError s!"{path} appeared but could not be read"))) with
        ⟨absent, same⟩ | ⟨content, file, empty, e, same⟩ | ⟨content, file, filled, same⟩
      · rw [same]
        exact .unreadable _ (.inr rfl) (.inr ⟨absent, phase⟩)
      · rw [same]
        exact .unreadable e (.inr rfl) (.inl ⟨content, file, empty⟩)
      · rw [same]
        exact .found (.inr rfl) file filled
  | write =>
      simp only [step] at h
      split at h <;> cases h
      rename_i value phase
      exact .filled phase
  | fault description =>
      obtain ⟨e, _, rfl⟩ := Option.map_eq_some_iff.mp h
      exact .refused e
  | crash =>
      cases h
      exact .moved (by simp) (by simp) (by simp) (.inl rfl)

theorem moveTo_cases (s : Store P) (p q : P) (phase : Phase) :
    (q = p ∧ (s.moveTo p phase).processes q = phase) ∨
      q ≠ p ∧ (s.moveTo p phase).processes q = s.processes q := by
  by_cases same : q = p
  · subst same
    exact .inl ⟨rfl, Function.update_self ..⟩
  · exact .inr ⟨same, Function.update_of_ne same ..⟩

end Steps

/-- Whoever writes has made the file, alone, and nobody has filled it. -/
structure Exclusive (s : Store P) : Prop where
  writing : ∀ p value, s.processes p = .writing value → s.file = some ""
  single : ∀ p q value other, s.processes p = .writing value → s.processes q = .writing other →
    p = q

section Exclusive
variable {s t : Store P} {p : P} {act : Action}

theorem Exclusive.moveTo (h : Exclusive s) {phase : Phase}
    (quiet : ∀ value, phase ≠ .writing value) : Exclusive (s.moveTo p phase) := by
  have old : ∀ q value, (s.moveTo p phase).processes q = .writing value →
      s.processes q = .writing value := by
    intro q value writes
    rcases s.moveTo_cases p q phase with ⟨_, same⟩ | ⟨_, same⟩
    · exact absurd (same.symm.trans writes) (quiet value)
    · exact same.symm.trans writes
  exact ⟨fun q value writes => h.writing q value (old q value writes),
    fun q r value other one two => h.single q r value other (old q value one) (old r other two)⟩

theorem Exclusive.finish (h : Exclusive s) (result : Except Failure String) :
    Exclusive (s.finish p result) := by
  have ended : Exclusive { s with results := s.results ++ [(p, result)] } := ⟨h.writing, h.single⟩
  exact ended.moveTo (by simp)

/-- Once the only writer has ended nobody writes. -/
theorem Exclusive.idle (h : Exclusive s) {value : Secret} (phase : s.processes p = .writing value)
    (file : Option String) (results : List (P × Except Failure String)) (q : P) (other : Secret) :
    (Store.moveTo ⟨file, s.processes, results⟩ p .idle).processes q ≠ .writing other := by
  intro writes
  rcases Store.moveTo_cases ⟨file, s.processes, results⟩ p q .idle with ⟨_, same⟩ | ⟨ne, same⟩
  · cases same.symm.trans writes
  · exact ne (h.single q p other value (same.symm.trans writes) phase)

theorem Effect.exclusive (e : Effect s p act t) (h : Exclusive s) : Exclusive t := by
  cases e with
  | moved quiet => exact h.moveTo quiet
  | refused | unreadable | found => exact h.finish _
  | @made value phase absent =>
      have mine : ∀ q other,
          (Store.moveTo { s with file := some "" } p (.writing value)).processes q =
            .writing other → q = p := by
        intro q other writes
        rcases Store.moveTo_cases { s with file := some "" } p q (.writing value) with
          ⟨same, _⟩ | ⟨_, same⟩
        · exact same
        · simpa [absent] using h.writing q other (same.symm.trans writes)
      exact ⟨fun _ _ _ => rfl, fun q r v w one two => (mine q v one).trans (mine r w two).symm⟩
  | @filled value phase =>
      have nobody := h.idle phase (some value.text) (s.results ++ [(p, .ok value.text)])
      exact ⟨fun q other writes => absurd writes (nobody q other),
        fun q _ other _ writes => absurd writes (nobody q other)⟩

/-- A file that holds something is left as it is. -/
theorem Effect.file_kept (e : Effect s p act t) (h : Exclusive s) {content : String}
    (file : s.file = some content) (nonempty : content ≠ "") : t.file = some content := by
  cases e with
  | moved | refused | unreadable | found => exact file
  | made _ absent => cases absent.symm.trans file
  | filled phase => exact absurd (Option.some.inj (file.symm.trans (h.writing p _ phase))) nonempty

end Exclusive

/-- What calls have returned is what the file holds. -/
structure Sound (s : Store P) : Prop extends Exclusive s where
  plain : ∀ p value, s.processes p = .creating value ∨ s.processes p = .writing value →
    '\r' ∉ value.text.toList
  returned : ∀ p value, (p, .ok value) ∈ s.results →
    value ≠ "" ∧ ∃ content, s.file = some content ∧ readBack content = value

/-- No value that a process prepares has a carriage return, which would not be read back as
it was written. -/
def Plain (_ : Store P) (l : P × Action) : Prop :=
  ∀ value, l.2 = .prepare value → '\r' ∉ value.text.toList

theorem readBack_empty : readBack "" = "" := by decide

section Sound
variable {s t : Store P} {p : P} {act : Action}

/-- The values at hand after a step are those from before it, or prepared in it. -/
theorem Effect.plain (e : Effect s p act t) (plain : Plain s (p, act)) (h : Sound s) (q : P)
    (value : Secret) (holds : t.processes q = .creating value ∨ t.processes q = .writing value) :
    '\r' ∉ value.text.toList := by
  have moves : ∀ (s' : Store P) (phase : Phase), s'.processes = s.processes →
      (∀ other, phase = .creating other ∨ phase = .writing other → '\r' ∉ other.text.toList) →
      ((s'.moveTo p phase).processes q = .creating value ∨
        (s'.moveTo p phase).processes q = .writing value) → '\r' ∉ value.text.toList := by
    intro s' phase same fresh holds
    rcases s'.moveTo_cases p q phase with ⟨_, here⟩ | ⟨_, there⟩
    · exact fresh value (holds.imp here.symm.trans here.symm.trans)
    · exact h.plain q value (same ▸ holds.imp there.symm.trans there.symm.trans)
  cases e with
  | moved quiet prepared =>
      exact moves _ _ rfl (fun other new => plain other
        (prepared other (new.resolve_right (quiet other)))) holds
  | refused | unreadable | found => exact moves _ _ rfl (by simp) holds
  | @made own phase =>
      refine moves { s with file := some "" } _ rfl (fun other new => ?_) holds
      rcases new with new | new <;> cases new
      exact h.plain p own (.inl phase)
  | filled => exact moves { s with file := _, results := _ } _ rfl (by simp) holds

theorem Effect.sound (e : Effect s p act t) (plain : Plain s (p, act)) (h : Sound s) : Sound t := by
  refine ⟨e.exclusive h.toExclusive, e.plain plain h, fun q v mem => ?_⟩
  cases e with
  | moved => exact h.returned q v mem
  | refused | unreadable =>
      rcases List.mem_append.mp mem with old | new
      · exact h.returned q v old
      · cases (Prod.mk.inj (List.mem_singleton.mp new)).2
  | @found _ content _ file filled =>
      rcases List.mem_append.mp mem with old | new
      · exact h.returned q v old
      · rw [Except.ok.inj (Prod.mk.inj (List.mem_singleton.mp new)).2]
        exact ⟨filled, content, file, rfl⟩
  | made _ absent =>
      obtain ⟨_, content, file, _⟩ := h.returned q v mem
      cases absent.symm.trans file
  | @filled value phase =>
      rcases List.mem_append.mp mem with old | new
      · obtain ⟨nonempty, content, file, read⟩ := h.returned q v old
        obtain rfl := Option.some.inj (file.symm.trans (h.writing p value phase))
        exact absurd (read.symm.trans readBack_empty) nonempty
      · rw [Except.ok.inj (Prod.mk.inj (List.mem_singleton.mp new)).2]
        exact ⟨value.nonempty, value.text, rfl,
          readBack_secret value (h.plain p value (.inr phase))⟩

end Sound

/-- No call has begun. The file may be there. -/
structure Initial (s : Store P) : Prop where
  idle : ∀ p, s.processes p = .idle
  results : s.results = []

omit [DecidableEq P] in
theorem Initial.sound {s : Store P} (h : s.Initial) : Sound s where
  writing p value writes := by simp [h.idle p] at writes
  single p _ value _ writes := by simp [h.idle p] at writes
  plain p value holds := by simp [h.idle p] at holds
  returned p value mem := by simp [h.results] at mem

/-- In every run, with any number of processes, crashes and refusals of the operating
system: if no prepared value has a carriage return, all calls that return a value return the
same one, and a file that holds something keeps it. -/
theorem secrets_agree {directory path : String} {start s t : Store P} (initial : start.Initial)
    (before : Reaches (step directory path) Plain start s)
    (after : Reaches (step directory path) Plain s t) :
    (∀ p q v w, (p, .ok v) ∈ t.results → (q, .ok w) ∈ t.results → v = w) ∧
      ∀ content, s.file = some content → content ≠ "" → t.file = some content := by
  have sound : ∀ {u}, Reaches (step directory path) Plain start u → Sound u := fun run =>
    run.invariant initial.sound fun _ l _ plain h => (effect_of_step (p := l.1) h).sound plain
  refine ⟨fun p q v w one two => ?_, fun content file nonempty => ?_⟩
  · obtain ⟨_, c, held, rfl⟩ := (sound (before.trans after)).returned p v one
    obtain ⟨_, c', held', rfl⟩ := (sound (before.trans after)).returned q w two
    rw [Option.some.inj (held.symm.trans held')]
  · exact after.invariantAlong file fun _ l _ run _ h file =>
      (effect_of_step (p := l.1) h).file_kept (sound (before.trans run)).toExclusive file nonempty

/-! The race for a file that is not there. -/

/-- No process dies or is refused, and none looks at the file while another has made it and
not yet filled it. -/
structure Unhurried (s : Store P) (l : P × Action) : Prop where
  plain : Plain s l
  lives : l.2 ≠ .crash
  granted : ∀ description, l.2 ≠ .fault description
  patient : l.2 = .read ∨ l.2 = .reread → ∀ p value, s.processes p ≠ .writing value

/-- Every call that has ended has returned the value that was written. -/
structure Smooth (s : Store P) : Prop extends Sound s where
  won : ∀ p result, (p, result) ∈ s.results →
    ∃ value : Secret, s.file = some value.text ∧ result = .ok value.text
  held : ∀ content, s.file = some content → (∃ p value, s.processes p = .writing value) ∨
    ∃ value : Secret, content = value.text ∧ '\r' ∉ value.text.toList
  lost : ∀ p, s.processes p = .rereading → s.file ≠ none

section Smooth
variable {s t : Store P} {p : P} {act : Action}

omit [DecidableEq P] in
/-- A call that looks at the file while nobody writes finds a value in it. -/
theorem Smooth.filled (h : Smooth s) (nobody : ∀ p value, s.processes p ≠ .writing value)
    {content : String} (file : s.file = some content) :
    ∃ value : Secret, content = value.text ∧ readBack content = value.text := by
  rcases h.held content file with ⟨q, value, writes⟩ | ⟨value, rfl, plain⟩
  · exact absurd writes (nobody q value)
  · exact ⟨value, rfl, readBack_secret value plain⟩

theorem Effect.smooth (e : Effect s p act t) (calm : Unhurried s (p, act)) (h : Smooth s) :
    Smooth t := by
  refine ⟨e.sound calm.plain h.toSound, ?_, ?_, ?_⟩
  · intro q result mem
    cases e with
    | moved => exact h.won q result mem
    | refused => exact absurd rfl (calm.granted _)
    | unreadable e looks why =>
        rcases why with ⟨content, file, empty⟩ | ⟨absent, phase⟩
        · obtain ⟨value, rfl, read⟩ := h.filled (calm.patient looks) file
          exact absurd (read.symm.trans empty) value.nonempty
        · exact absurd absent (h.lost p phase)
    | found looks file =>
        rcases List.mem_append.mp mem with old | new
        · exact h.won q result old
        · obtain ⟨value, rfl, read⟩ := h.filled (calm.patient looks) file
          exact ⟨value, file, by rw [(Prod.mk.inj (List.mem_singleton.mp new)).2, read]⟩
    | made _ absent =>
        obtain ⟨value, file, _⟩ := h.won q result mem
        cases absent.symm.trans file
    | @filled value phase =>
        rcases List.mem_append.mp mem with old | new
        · obtain ⟨other, file, _⟩ := h.won q result old
          exact absurd (Option.some.inj (file.symm.trans (h.writing p value phase))) other.nonempty
        · exact ⟨value, rfl, (Prod.mk.inj (List.mem_singleton.mp new)).2⟩
  · intro content file
    cases e with
    | moved quiet _ _ alive =>
        refine (h.held content file).imp_left fun ⟨q, value, writes⟩ => ⟨q, value, ?_⟩
        rcases s.moveTo_cases p q _ with ⟨rfl, _⟩ | ⟨_, same⟩
        · exact absurd writes (alive.resolve_left calm.lives value)
        · exact same.trans writes
    | refused => exact absurd rfl (calm.granted _)
    | unreadable _ looks | found looks =>
        rcases h.held content file with ⟨q, other, writes⟩ | filled
        · exact absurd writes (calm.patient looks q other)
        · exact .inr filled
    | made => exact .inl ⟨p, _, Function.update_self ..⟩
    | @filled value phase =>
        exact .inr ⟨value, (Option.some.inj file).symm, h.plain p value (.inr phase)⟩
  · intro q phase
    cases e with
    | moved _ _ lost =>
        rcases s.moveTo_cases p q _ with ⟨_, same⟩ | ⟨_, same⟩
        · exact lost (same.symm.trans phase)
        · exact h.lost q (same.symm.trans phase)
    | refused => exact absurd rfl (calm.granted _)
    | unreadable | found =>
        rcases Store.moveTo_cases { s with results := _ } p q .idle with ⟨_, same⟩ | ⟨_, same⟩
        · cases same.symm.trans phase
        · exact h.lost q (same.symm.trans phase)
    | made | filled => exact nofun

end Smooth

/-- In every run from a file that is not there: if nobody looks at the file between its
making and its filling, every call that ends returns the value of the one that filled it. -/
theorem losers_return_winner {directory path : String} {start t : Store P}
    (initial : start.Initial) (absent : start.file = none)
    (run : Reaches (step directory path) Unhurried start t) {p : P}
    {result : Except Failure String} (ended : (p, result) ∈ t.results) :
    ∃ value : Secret, t.file = some value.text ∧ result = .ok value.text := by
  have start_smooth : Smooth start := {
    toSound := initial.sound
    won := by simp [initial.results]
    held := by simp [absent]
    lost := by simp [initial.idle] }
  exact (run.invariant start_smooth fun _ l _ calm h kept =>
    (effect_of_step (p := l.1) h).smooth calm kept).won p result ended

/-- The same restriction as a test of one step: a file that is made and not yet filled is
empty. -/
def patientStep (s : Store P) (l : P × Action) : Bool :=
  match l.2 with
  | .read | .reread => s.file != some ""
  | .prepare value => !value.text.toList.contains '\r'
  | .fault _ | .crash => false
  | .start | .create | .write => true

omit [DecidableEq P] in
theorem Exclusive.unhurried {s : Store P} (h : Exclusive s) {l : P × Action}
    (patient : patientStep s l = true) : Unhurried s l := by
  obtain ⟨p, act⟩ := l
  refine ⟨?_, ?_, ?_, ?_⟩
  · rintro value rfl
    simpa [patientStep] using patient
  · rintro rfl
    cases patient
  · rintro description rfl
    cases patient
  · rintro looks q value writes
    have file := h.writing q value writes
    rcases looks with rfl | rfl <;> simp [patientStep, file] at patient

theorem unhurried_of_patient {directory path : String} {start t : Store P}
    (initial : start.Initial)
    (run : Reaches (step directory path) (fun s l => patientStep s l = true) start t) :
    Reaches (step directory path) Unhurried start t ∧ Exclusive t := by
  induction run with
  | refl => exact ⟨.refl, initial.sound.toExclusive⟩
  | next l _ patient steps ih =>
      exact ⟨.next l ih.1 (ih.2.unhurried patient) steps,
        (effect_of_step (p := l.1) steps).exclusive ih.2⟩

end Store

/-! The worker and the admin role start at the same moment. -/
namespace Sample
open Store

def fresh : Store String := ⟨none, fun _ => .idle, []⟩

theorem fresh_initial : fresh.Initial := ⟨fun _ => rfl, rfl⟩

def workerKey : Secret := { text := "worker-key" }
def adminKey : Secret := { text := "admin-key" }

/-- A value that is written as it is and read back with a line feed. -/
def brokenKey : Secret := { text := "worker\rkey" }

/-- Both have found no file; the worker is faster to make it. -/
def raceFor (value : Secret) : List (String × Action) := [
  ("worker", .start), ("admin", .start), ("worker", .read), ("admin", .read),
  ("worker", .prepare value), ("admin", .prepare adminKey), ("worker", .create),
  ("admin", .create)]

/-- The worker fills the file before the admin role looks again. -/
def patientRace (value : Secret) : List (String × Action) :=
  raceFor value ++ [("worker", .write), ("admin", .reread)]

/-- It looks before that. -/
def hastyRace : List (String × Action) :=
  raceFor workerKey ++ [("admin", .reread), ("worker", .write)]

def after (labels : List (String × Action)) : Store String :=
  final (step "/secrets" "/secrets/key") fresh labels

/-- How the calls have ended: the value, or nothing for a failure. -/
def outcomes (s : Store String) : List (String × Option String) :=
  s.results.map fun (p, result) => (p, result.toOption)

theorem mem_results {s : Store String} {p value : String}
    (h : (p, some value) ∈ outcomes s) : (p, .ok value) ∈ s.results := by
  obtain ⟨⟨q, result⟩, mem, same⟩ := List.mem_map.mp h
  cases result with
  | error e => cases same
  | ok v =>
      cases same
      exact mem

theorem patientRace_ends : Reaches (step "/secrets" "/secrets/key") Unhurried fresh
      (after (patientRace workerKey)) ∧ outcomes (after (patientRace workerKey)) =
        [("worker", some "worker-key"), ("admin", some "worker-key")] := by
  have run : (execute (guarded (step "/secrets" "/secrets/key") fun s l => patientStep s l = true)
      fresh (patientRace workerKey)).map outcomes =
        some [("worker", some "worker-key"), ("admin", some "worker-key")] := by decide +kernel
  obtain ⟨run, ends⟩ := reaches_of_guarded outcomes run
  exact ⟨(unhurried_of_patient fresh_initial run).1, ends⟩

end Sample

/-- A carriage return: the admin role reads another value than the worker has returned. -/
theorem carriage_return_disagrees :
    Reaches (Store.step "/secrets" "/secrets/key") Any Sample.fresh
      (Sample.after (Sample.patientRace Sample.brokenKey)) ∧
    Sample.outcomes (Sample.after (Sample.patientRace Sample.brokenKey)) =
      [("worker", some "worker\rkey"), ("admin", some "worker\nkey")] :=
  reaches_final _ (by decide +kernel) fun _ _ _ => trivial

/-- Without one both have the worker's. -/
theorem race_agrees :
    (∀ p q v w, (p, .ok v) ∈ (Sample.after (Sample.patientRace Sample.workerKey)).results →
      (q, .ok w) ∈ (Sample.after (Sample.patientRace Sample.workerKey)).results → v = w) ∧
    ("admin", .ok "worker-key") ∈ (Sample.after (Sample.patientRace Sample.workerKey)).results := by
  obtain ⟨run, ends⟩ := Sample.patientRace_ends
  exact ⟨(Store.secrets_agree Sample.fresh_initial .refl
    (run.mono fun _ _ calm => calm.plain)).1, Sample.mem_results (by rw [ends]; decide)⟩

/-- The admin role loses the race and looks at once: its call fails. -/
theorem hasty_loser_raises :
    Reaches (Store.step "/secrets" "/secrets/key") (fun _ l => l.2 ≠ .crash ∧ ∀ d, l.2 ≠ .fault d)
      Sample.fresh (Sample.after Sample.hastyRace) ∧
    Sample.outcomes (Sample.after Sample.hastyRace) =
      [("admin", none), ("worker", some "worker-key")] := by
  refine reaches_final _ (by decide +kernel) fun l mem s => ?_
  simp only [Sample.hastyRace, Sample.raceFor, List.cons_append, List.nil_append, List.mem_cons,
    List.not_mem_nil, or_false] at mem
  rcases mem with rfl | rfl | rfl | rfl | rfl | rfl | rfl | rfl | rfl | rfl <;> simp

/-- One that looks later has the winner's value. -/
theorem patient_loser_returns : ∃ value : Secret,
    (Sample.after (Sample.patientRace Sample.workerKey)).file = some value.text ∧
      (Except.ok "worker-key" : Except Failure String) = .ok value.text := by
  obtain ⟨run, ends⟩ := Sample.patientRace_ends
  exact Store.losers_return_winner Sample.fresh_initial rfl run
    (p := "admin") (Sample.mem_results (by rw [ends]; decide))

end Emaild.Secretstore
