import Mathlib.Data.List.Induction
import Emaild.Models
import Emaild.Text.Python

/-!
One-shot values of the dashboard. A value stays in the memory of the process under a random
handle until it is read once; what is not read within its time is swept out by the next call.
-/
namespace Emaild
open Relational Text

/-- `_TTL_SECONDS` -/
def ttl : Time := seconds 120

/-- What `secrets.token_urlsafe` draws is never empty. -/
structure Handle where
  text : String
  nonempty : text ≠ ""
  deriving DecidableEq

/-- `_ONE_SHOT`: the payload of a handle, and when it expires. -/
abbrev OneShot (α : Type) := Dict String (Time × α)

namespace OneShot
variable {α : Type}

/-- `_expire` -/
def expire (now : Time) (store : OneShot α) : OneShot α := store.delete fun entry => entry.2.1 < now

/-- `stash`. The clock is read by the sweep, and once more for the entry. -/
def stash (swept now : Time) (handle : Handle) (payload : α) (store : OneShot α) : OneShot α :=
  Dict.set (expire swept store) handle.text (now + ttl, payload)

/-- `take` -/
def take (now : Time) (handle : Option String) (store : OneShot α) : Option α × OneShot α :=
  let handle := orEmpty handle
  if handle = "" then (none, store)
  else
    let store := expire now store
    ((Dict.get? store handle).map Prod.snd, store.delete fun entry => entry.1 = handle)

end OneShot

/-- A call of the store, with what the clock shows and the handle that is drawn. -/
inductive StoreCall (α : Type)
  | stash (swept now : Time) (handle : Handle) (payload : α)
  | take (now : Time) (handle : Option String)

namespace StoreCall
variable {α : Type}

/-- The readings of the clock. -/
def readings : StoreCall α → List Time
  | stash swept now _ _ => [swept, now]
  | take now handle => if orEmpty handle = "" then [] else [now]

/-- The handle that is drawn. -/
def drawn? : StoreCall α → Option Handle
  | stash _ _ handle _ => some handle
  | take .. => none

/-- The call asks for the handle. -/
def Asks (handle : Handle) : StoreCall α → Prop
  | stash .. => False
  | take _ asked => asked = some handle.text

def apply (store : OneShot α) : StoreCall α → OneShot α
  | stash swept now handle payload => store.stash swept now handle payload
  | take now handle => (store.take now handle).2

end StoreCall

section Runs
variable {α : Type}

/-- The store after calls from the start of the process on. -/
def storeAfter (calls : List (StoreCall α)) : OneShot α := calls.foldl StoreCall.apply Table.empty

/-- What a read of the handle returns after these calls. -/
def returned (calls : List (StoreCall α)) (now : Time) (handle : Option String) : Option α :=
  ((storeAfter calls).take now handle).1

/-- The clock never goes back, and no handle is drawn twice. -/
structure Orderly (calls : List (StoreCall α)) : Prop where
  ascending : (calls.flatMap StoreCall.readings).Pairwise (· ≤ ·)
  distinct : (calls.filterMap StoreCall.drawn?).Nodup

/-- The payload has been stashed under the handle and not been asked for since. -/
def Held (calls : List (StoreCall α)) (stashedAt : Time) (handle : Handle) (payload : α) : Prop :=
  ∃ before swept after, calls = before ++ .stash swept stashedAt handle payload :: after ∧
    ∀ call ∈ after, ¬ call.Asks handle

/-! What one call does. -/

theorem held_append {calls : List (StoreCall α)} {call : StoreCall α} {stashedAt : Time}
    {handle : Handle} {payload : α} :
    Held (calls ++ [call]) stashedAt handle payload ↔
      (∃ swept, call = .stash swept stashedAt handle payload) ∨
        Held calls stashedAt handle payload ∧ ¬ call.Asks handle := by
  constructor
  · rintro ⟨before, swept, after, same, unasked⟩
    rcases List.eq_nil_or_concat after with rfl | ⟨after, last, rfl⟩
    · obtain ⟨-, here⟩ := List.append_inj' same rfl
      exact .inl ⟨swept, List.cons.inj here |>.1⟩
    · rw [List.concat_eq_append, ← List.cons_append, ← List.append_assoc] at same
      obtain ⟨rfl, here⟩ := List.append_inj' same rfl
      obtain rfl := (List.cons.inj here).1
      rw [List.concat_eq_append, List.forall_mem_append] at unasked
      exact .inr ⟨⟨before, swept, after, rfl, unasked.1⟩, unasked.2 call List.mem_cons_self⟩
  · rintro (⟨swept, rfl⟩ | ⟨⟨before, swept, after, rfl, unasked⟩, other⟩)
    · exact ⟨calls, swept, [], rfl, List.forall_mem_nil _⟩
    · refine ⟨before, swept, after ++ [call], by simp, List.forall_mem_append.mpr ⟨unasked, ?_⟩⟩
      exact List.forall_mem_singleton.mpr other

theorem get?_delete {store : OneShot α} {p : String × Time × α → Bool} {handle : String}
    {entry : Time × α} :
    Dict.get? (store.delete p) handle = some entry ↔
      Dict.get? store handle = some entry ∧ p (handle, entry) = false := by
  simp only [Dict.get?, Table.find?_delete, Option.map_eq_some_iff, Option.filter_eq_some_iff]
  constructor
  · rintro ⟨found, ⟨known, stays⟩, rfl⟩
    obtain rfl : found.1 = handle := Table.key_of_find? known
    exact ⟨⟨found, known, rfl⟩, by simpa using stays⟩
  · rintro ⟨⟨found, known, rfl⟩, stays⟩
    obtain rfl : found.1 = handle := Table.key_of_find? known
    exact ⟨found, ⟨known, by simpa using stays⟩, rfl⟩

theorem get?_expire {now : Time} {store : OneShot α} {handle : String} {entry : Time × α} :
    Dict.get? (store.expire now) handle = some entry ↔
      Dict.get? store handle = some entry ∧ now ≤ entry.1 := by
  simp [OneShot.expire, get?_delete]

theorem get?_stash {swept now : Time} {new : Handle} {payload : α} {store : OneShot α}
    {handle : String} {entry : Time × α} :
    Dict.get? (store.stash swept now new payload) handle = some entry ↔
      handle = new.text ∧ entry = (now + ttl, payload) ∨
        handle ≠ new.text ∧ Dict.get? store handle = some entry ∧ swept ≤ entry.1 := by
  rw [OneShot.stash, Dict.get?_set]
  by_cases here : handle = new.text
  · simp [here, eq_comm]
  · simp [here, get?_expire]

/-- A read that names a handle sweeps first, and leaves nothing under the handle. -/
theorem get?_take {now : Time} {asked : Option String} {store : OneShot α}
    (named : orEmpty asked ≠ "") {handle : String} {entry : Time × α} :
    Dict.get? (store.take now asked).2 handle = some entry ↔
      (Dict.get? store handle = some entry ∧ now ≤ entry.1) ∧ handle ≠ orEmpty asked := by
  simp [OneShot.take, named, get?_delete, get?_expire]

theorem take_eq_some {now : Time} {asked : Option String} {store : OneShot α} {payload : α} :
    (store.take now asked).1 = some payload ↔
      orEmpty asked ≠ "" ∧ ∃ expires, Dict.get? store (orEmpty asked) = some (expires, payload) ∧
        now ≤ expires := by
  by_cases named : orEmpty asked = ""
  · simp [OneShot.take, named]
  · simp [OneShot.take, named, Option.map_eq_some_iff, get?_expire]

theorem asked_eq_some {asked : Option String} {handle : Handle}
    (same : orEmpty asked = handle.text) : asked = some handle.text := by
  cases asked with
  | none => exact absurd same.symm handle.nonempty
  | some text => exact congrArg some same

/-! What the store holds after any calls. -/

/-- The store holds what is held under a handle, until a reading of the clock is later than
its time. -/
structure Tracks (calls : List (StoreCall α)) (store : OneShot α) : Prop where
  sound : ∀ handle expires payload, Dict.get? store handle = some (expires, payload) →
    ∃ own stashedAt, own.text = handle ∧ expires = stashedAt + ttl ∧
      Held calls stashedAt own payload
  complete : ∀ stashedAt handle payload, Held calls stashedAt handle payload →
    Dict.get? store handle.text = some (stashedAt + ttl, payload) ∨
      ∃ now ∈ calls.flatMap StoreCall.readings, stashedAt + ttl < now

theorem Tracks.stash {calls : List (StoreCall α)} {store : OneShot α} (tracks : Tracks calls store)
    (swept now : Time) (new : Handle) (payload : α)
    (fresh : new ∉ calls.filterMap StoreCall.drawn?) :
    Tracks (calls ++ [.stash swept now new payload]) (store.stash swept now new payload) where
  sound handle expires p known := by
    rcases get?_stash.mp known with ⟨rfl, same⟩ | ⟨other, known, _⟩
    · cases same
      exact ⟨new, now, rfl, rfl, held_append.mpr (.inl ⟨swept, rfl⟩)⟩
    · obtain ⟨own, stashedAt, isHandle, expiry, held⟩ := tracks.sound handle expires p known
      exact ⟨own, stashedAt, isHandle, expiry, held_append.mpr (.inr ⟨held, not_false⟩)⟩
  complete stashedAt handle p held := by
    simp only [List.flatMap_append, List.mem_append]
    rcases held_append.mp held with ⟨_, same⟩ | ⟨held, _⟩
    · cases same
      exact .inl (get?_stash.mpr (.inl ⟨rfl, rfl⟩))
    · have other : handle.text ≠ new.text := by
        intro same
        obtain ⟨before, swept', after, rfl, _⟩ := held
        refine fresh (List.mem_filterMap.mpr ⟨_, List.mem_append_right _ List.mem_cons_self, ?_⟩)
        cases handle
        cases new
        cases same
        rfl
      rcases tracks.complete stashedAt handle p held with known | ⟨r, reading, late⟩
      · by_cases late : stashedAt + ttl < swept
        · exact .inr ⟨swept, .inr (by simp [StoreCall.readings]), late⟩
        · exact .inl (get?_stash.mpr (.inr ⟨other, known, not_lt.mp late⟩))
      · exact .inr ⟨r, .inl reading, late⟩

theorem Tracks.take {calls : List (StoreCall α)} {store : OneShot α} (tracks : Tracks calls store)
    (now : Time) (asked : Option String) :
    Tracks (calls ++ [.take now asked]) (store.take now asked).2 := by
  by_cases named : orEmpty asked = ""
  · -- nothing is swept, and no handle is named by the call
    have unasked (handle : Handle) : ¬ StoreCall.Asks (α := α) handle (.take now asked) := by
      rintro rfl
      exact handle.nonempty named
    have kept : (store.take now asked).2 = store := by simp [OneShot.take, named]
    rw [kept]
    constructor
    · intro handle expires p known
      obtain ⟨own, stashedAt, isHandle, expiry, held⟩ := tracks.sound handle expires p known
      exact ⟨own, stashedAt, isHandle, expiry, held_append.mpr (.inr ⟨held, unasked own⟩)⟩
    · intro stashedAt handle p held
      rcases held_append.mp held with ⟨_, same⟩ | ⟨held, _⟩
      · cases same
      · refine (tracks.complete stashedAt handle p held).imp_right ?_
        rintro ⟨r, reading, late⟩
        exact ⟨r, by rw [List.flatMap_append]; exact List.mem_append_left _ reading, late⟩
  · constructor
    · intro handle expires p known
      obtain ⟨⟨known, _⟩, other⟩ := (get?_take named).mp known
      obtain ⟨own, stashedAt, rfl, expiry, held⟩ := tracks.sound handle expires p known
      refine ⟨own, stashedAt, rfl, expiry, held_append.mpr (.inr ⟨held, ?_⟩)⟩
      rintro rfl
      exact other rfl
    · intro stashedAt handle p held
      simp only [List.flatMap_append, List.mem_append]
      rcases held_append.mp held with ⟨_, same⟩ | ⟨held, unasked⟩
      · cases same
      · rcases tracks.complete stashedAt handle p held with known | ⟨r, reading, late⟩
        · by_cases late : stashedAt + ttl < now
          · exact .inr ⟨now, .inr (by simp [StoreCall.readings, named]), late⟩
          · refine .inl ((get?_take named).mpr ⟨⟨known, not_lt.mp late⟩, fun same => ?_⟩)
            exact unasked (asked_eq_some same.symm)
        · exact .inr ⟨r, .inl reading, late⟩

theorem Orderly.of_append {calls more : List (StoreCall α)} (orderly : Orderly (calls ++ more)) :
    Orderly calls where
  ascending := by
    have ascending := orderly.ascending
    rw [List.flatMap_append] at ascending
    exact (List.pairwise_append.mp ascending).1
  distinct := by
    have distinct := orderly.distinct
    rw [List.filterMap_append] at distinct
    exact distinct.of_append_left

/-- The run lemma: by induction on the calls, the last one first. -/
theorem tracks_storeAfter {calls : List (StoreCall α)} (orderly : Orderly calls) :
    Tracks calls (storeAfter calls) := by
  induction calls using List.reverseRecOn with
  | nil =>
      constructor
      · intro handle expires payload known
        cases known
      · rintro stashedAt handle payload ⟨before, _, _, same, _⟩
        cases before <;> cases same
  | append_singleton calls call ih =>
      have tracks := ih orderly.of_append
      rw [storeAfter, List.foldl_append]
      cases call with
      | take now asked => exact tracks.take now asked
      | stash swept now new payload =>
          refine tracks.stash swept now new payload fun drawn => ?_
          have distinct := orderly.distinct
          rw [List.filterMap_append] at distinct
          exact List.disjoint_of_nodup_append distinct drawn (by simp [StoreCall.drawn?])

/-- What a read returns at the end of a run. -/
theorem returned_eq_some {calls : List (StoreCall α)} {now : Time} {asked : Option String}
    (orderly : Orderly (calls ++ [.take now asked])) {payload : α} :
    returned calls now asked = some payload ↔
      ∃ handle stashedAt, asked = some handle.text ∧ Held calls stashedAt handle payload ∧
        now ≤ stashedAt + ttl := by
  have tracks := tracks_storeAfter orderly.of_append
  rw [returned, take_eq_some]
  constructor
  · rintro ⟨named, expires, known, inTime⟩
    obtain ⟨handle, stashedAt, own, rfl, held⟩ := tracks.sound _ _ _ known
    exact ⟨handle, stashedAt, asked_eq_some own.symm, held, inTime⟩
  · rintro ⟨handle, stashedAt, rfl, held, inTime⟩
    refine ⟨handle.nonempty, stashedAt + ttl, ?_, inTime⟩
    refine (tracks.complete stashedAt handle payload held).resolve_right ?_
    rintro ⟨r, reading, late⟩
    -- the clock has shown no time later than this one
    have ascending := orderly.ascending
    rw [List.flatMap_append] at ascending
    have named : orEmpty (some handle.text) ≠ "" := handle.nonempty
    have before := (List.pairwise_append.mp ascending).2.2 r reading now
      (by simp [StoreCall.readings, named])
    exact absurd (lt_of_lt_of_le late before) (not_lt.mpr inTime)

/-- A handle that is held before a read of it has been drawn once and for all: nothing is
held under it afterwards. -/
theorem not_held_after {calls middle : List (StoreCall α)} {now : Time} {handle : Handle}
    (orderly : Orderly (calls ++ .take now (some handle.text) :: middle)) {stashedAt again : Time}
    {payload payload' : α} (held : Held calls stashedAt handle payload) :
    ¬ Held (calls ++ .take now (some handle.text) :: middle) again handle payload' := by
  rintro ⟨before, swept, after, same, unasked⟩
  obtain ⟨first, swept', rest, rfl, _⟩ := held
  rcases List.append_eq_append_iff.mp same with ⟨shared, rfl, tail⟩ | ⟨shared, whole, tail⟩
  · -- the later stash draws the handle of the earlier one
    have distinct := orderly.distinct
    rw [same, List.filterMap_append] at distinct
    refine List.disjoint_of_nodup_append distinct (a := handle) ?_ ?_
    · exact List.mem_filterMap.mpr ⟨.stash swept' stashedAt handle payload, by simp, rfl⟩
    · exact List.mem_filterMap.mpr ⟨.stash swept again handle payload', by simp, rfl⟩
  · -- the read comes after the stash
    cases shared with
    | nil => cases tail
    | cons call shared =>
        obtain ⟨-, rfl⟩ := List.cons.inj tail
        exact unasked _ (List.mem_append_right _ List.mem_cons_self) rfl

/-- Every payload is read at most once, under its own handle and within its time; and the
first read of its handle within that time finds it. -/
structure ReadOnce (calls : List (StoreCall α)) : Prop where
  own : ∀ before now asked after payload, calls = before ++ .take now asked :: after →
    returned before now asked = some payload →
      ∃ handle stashedAt, asked = some handle.text ∧ Held before stashedAt handle payload ∧
        now ≤ stashedAt + ttl
  once : ∀ before now asked middle again after payload,
    calls = before ++ .take now asked :: middle ++ .take again asked :: after →
      returned before now asked = some payload →
        returned (before ++ .take now asked :: middle) again asked = none
  first : ∀ before swept stashedAt handle payload middle now after,
    calls = before ++ .stash swept stashedAt handle payload :: middle ++
      .take now (some handle.text) :: after →
        (∀ call ∈ middle, ¬ call.Asks handle) → now ≤ stashedAt + ttl →
          returned (before ++ .stash swept stashedAt handle payload :: middle) now
            (some handle.text) = some payload

theorem orderly_read_once (calls : List (StoreCall α)) (orderly : Orderly calls) :
    ReadOnce calls where
  own before now asked after payload same found := by
    rw [same, List.append_cons] at orderly
    exact (returned_eq_some orderly.of_append).mp found
  once before now asked middle again after payload same found := by
    rw [same, List.append_cons] at orderly
    have until_again := orderly.of_append
    have until_now := until_again.of_append
    have cut := until_now
    rw [List.append_cons] at cut
    obtain ⟨handle, stashedAt, rfl, held, _⟩ := (returned_eq_some cut.of_append).mp found
    rw [Option.eq_none_iff_forall_ne_some]
    intro payload' found'
    obtain ⟨handle', again', own, held', _⟩ := (returned_eq_some until_again).mp found'
    obtain rfl : handle = handle' := by
      cases handle
      cases handle'
      cases own
      rfl
    exact not_held_after until_now held held'
  first before swept stashedAt handle payload middle now after same unasked inTime := by
    rw [same, List.append_cons] at orderly
    exact (returned_eq_some orderly.of_append).mpr
      ⟨handle, stashedAt, rfl, ⟨before, swept, middle, rfl, unasked⟩, inTime⟩

end Runs

namespace Sample

def firstHandle : Handle := ⟨"4f", by decide⟩
def otherHandle : Handle := ⟨"9c", by decide⟩

/-- The first payload is read at the last moment of its time. -/
def twoStashes : List (StoreCall Nat) := [
  .stash 0 0 firstHandle 7,
  .stash (seconds 5) (seconds 5) otherHandle 8,
  .take (seconds 120) (some "4f")]

theorem twoStashes_orderly : Orderly twoStashes := ⟨by decide, by decide⟩

end Sample

theorem first_payload_is_read :
    returned [.stash 0 0 Sample.firstHandle 7,
      .stash (seconds 5) (seconds 5) Sample.otherHandle 8] (seconds 120) (some "4f") = some 7 :=
  (orderly_read_once Sample.twoStashes Sample.twoStashes_orderly).first [] 0 0 Sample.firstHandle 7
    [.stash (seconds 5) (seconds 5) Sample.otherHandle 8] (seconds 120) [] rfl
    (List.forall_mem_singleton.mpr not_false) (by decide)

end Emaild
