import ChipEight.Keypad
import Mathlib.Data.List.Find
import Mathlib.Data.List.FinRange
/-! # Which key a wait delivers

A keypad keeps one key for the wait that is open.  Here a wait is told by its history alone: which
calls came since it was opened (`Keypad.waiting`), where the keys were at each of them
(`Keypad.held`), and which keys went from released to pressed (`Keypad.rises`).  The keypad follows
its history (`Keypad.after_follows`): the key that it keeps is the first of these, and so
`Keypad.waits_deliver` says what a wait answers. -/

namespace ChipEight
namespace Keypad

variable {k : Keypad} {key other : Key}

/-! ## Single keys -/

@[simp] theorem isDown_fresh : fresh.isDown key = false := by
  simp [fresh, isDown]

theorem isDown_pressKey : (k.pressKey key).isDown other = (other == key || k.isDown other) := by
  rw [pressKey]
  split
  · rename_i down
    by_cases same : other = key
    · rw [same, down, Bool.or_true]
    · rw [beq_false_of_ne same, Bool.false_or]
  · simp only [isDown, Fin.getElem_fin, Vector.getElem_set, Fin.val_inj]
    by_cases same : other = key
    · simp [same]
    · simp [same, Ne.symm same]

theorem isDown_releaseKey :
    (k.releaseKey key).isDown other = (other != key && k.isDown other) := by
  simp only [releaseKey, isDown, Fin.getElem_fin, Vector.getElem_set, Fin.val_inj]
  by_cases same : other = key
  · simp [same]
  · simp [same, Ne.symm same]

theorem isDown_setKey {down : Bool} :
    (k.setKey key down).isDown other = if other = key then down else k.isDown other := by
  cases down
  · rw [setKey, if_neg Bool.false_ne_true, isDown_releaseKey]
    by_cases same : other = key <;> simp [same]
  · rw [setKey, if_pos rfl, isDown_pressKey]
    by_cases same : other = key <;> simp [same]

@[simp] theorem state_pressKey : (k.pressKey key).state = k.state := by
  rw [pressKey]
  split <;> rfl

@[simp] theorem state_setKey {down : Bool} : (k.setKey key down).state = k.state := by
  cases down
  · rfl
  · exact state_pressKey

/-- A press is kept if it is new, a wait is open, and no press is kept yet. -/
theorem latched_setKey {down : Bool} : (k.setKey key down).latched =
    k.latched.or (if k.state = .awaiting ∧ !k.isDown key && down then some key else none) := by
  cases down
  · simp [setKey, releaseKey]
  · rw [setKey, if_pos rfl, pressKey]
    cases latched : k.latched <;> cases down : k.isDown key <;> simp [latched]

/-! ## Snapshots -/

/-- A snapshot brings the keys one after the other into their states. -/
theorem setFrom_eq_foldl {states : List Bool} {i : Nat} (length : i + states.length = 16) :
    k.setFrom i states = ((List.finRange 16).drop i).foldl
      (fun k key => k.setKey key (states.getD (key.val - i) false)) k := by
  induction states generalizing k i with
  | nil =>
    have all : (List.finRange 16).drop i = [] := List.drop_eq_nil_of_le (by simpa using length.ge)
    rw [all, setFrom, List.foldl_nil]
  | cons down rest ih =>
    simp only [List.length_cons] at length
    have here : i < (List.finRange 16).length := by rw [List.length_finRange]; omega
    have key : (List.finRange 16)[i] = Fin.ofNat 16 i := by
      rw [List.getElem_finRange]
      exact Fin.ext (Nat.mod_eq_of_lt (by omega)).symm
    rw [setFrom, ih (by omega), List.drop_eq_getElem_cons here, List.foldl_cons, key]
    have first : (Fin.ofNat 16 i).val - i = 0 := by simp only [Fin.ofNat]; omega
    rw [first, List.getD_cons_zero]
    refine List.foldl_ext _ _ _ fun k key later => ?_
    obtain ⟨j, hj, rfl⟩ := List.mem_drop_iff_getElem.mp later
    simp only [List.getElem_finRange, Fin.val_cast]
    rw [show i + 1 + j - i = i + 1 + j - (i + 1) + 1 by omega, List.getD_cons_succ]

section Fold
variable {keys : List Key} {down : Key → Bool}

theorem isDown_foldl (distinct : keys.Nodup) :
    (keys.foldl (fun k key => k.setKey key (down key)) k).isDown other =
      if other ∈ keys then down other else k.isDown other := by
  induction keys generalizing k with
  | nil => simp
  | cons key keys ih =>
    obtain ⟨new, distinct⟩ := List.nodup_cons.mp distinct
    rw [List.foldl_cons, ih distinct, isDown_setKey]
    by_cases later : other ∈ keys
    · simp [later]
    · by_cases same : other = key <;> simp [later, same]

theorem state_foldl : (keys.foldl (fun k key => k.setKey key (down key)) k).state = k.state := by
  induction keys generalizing k with
  | nil => rfl
  | cons key keys ih => rw [List.foldl_cons, ih, state_setKey]

theorem latched_foldl (distinct : keys.Nodup) :
    (keys.foldl (fun k key => k.setKey key (down key)) k).latched =
      k.latched.or (if k.state = .awaiting then keys.find? fun key => !k.isDown key && down key
        else none) := by
  induction keys generalizing k with
  | nil => simp
  | cons key keys ih =>
    obtain ⟨new, distinct⟩ := List.nodup_cons.mp distinct
    -- the other keys are where they were when their turns come
    have others : keys.find? (fun other => !(k.setKey key (down key)).isDown other && down other) =
        keys.find? fun other => !k.isDown other && down other := by
      refine List.find?_congr fun other mem => ?_
      have apart : other ≠ key := by
        rintro rfl
        exact new mem
      rw [isDown_setKey, if_neg apart]
    rw [List.foldl_cons, ih distinct, others, state_setKey, latched_setKey, Option.or_assoc]
    congr 1
    by_cases await : k.state = .awaiting
    · by_cases rise : (!k.isDown key && down key) = true
      · simp [await, rise]
      · simp [await, rise]
    · simp [await]

end Fold

/-- The state of a key in a snapshot. -/
def snapshot (states : List Bool) (key : Key) : Bool := states.getD key.val false

theorem setKeys_ok {states : List Bool} (length : states.length = 16) : k.setKeys states =
    .ok ((List.finRange 16).foldl (fun k key => k.setKey key (snapshot states key)) k) := by
  rw [setKeys, if_pos length, setFrom_eq_foldl (by omega)]
  rfl

/-! ## Histories -/

/-- What can be asked of a keypad; numbers of keys and lengths of snapshots may be invalid. -/
inductive Call where
  | press (number : Int)
  | release (number : Int)
  | setKeys (states : List Bool)
  | waitForKey
  deriving DecidableEq, Repr

/-- The keypad after a call, and the answer.  A call that is refused changes nothing. -/
def call (k : Keypad) : Call → Keypad × Except Failure (Option Key)
  | .press number => match k.press number with
    | .ok k => (k, .ok none)
    | .error e => (k, .error e)
  | .release number => match k.release number with
    | .ok k => (k, .ok none)
    | .error e => (k, .error e)
  | .setKeys states => match k.setKeys states with
    | .ok k => (k, .ok none)
    | .error e => (k, .error e)
  | .waitForKey => (k.waitForKey.2, .ok k.waitForKey.1)

/-- A fresh keypad after some calls, the latest first. -/
def after : List Call → Keypad
  | [] => fresh
  | c :: past => ((after past).call c).1

/-- What a check for a key answers after some calls. -/
def answer (past : List Call) : Option Key := (after past).waitForKey.1

/-- Whether a key is down after a call, from where the keys were before it. -/
def Call.leaves (c : Call) (down : Key → Bool) (key : Key) : Bool :=
  match c with
  | .press number => number = key.val || down key
  | .release number => number ≠ key.val && down key
  | .setKeys states => if states.length = 16 then snapshot states key else down key
  | .waitForKey => down key

/-- Where the keys are after some calls. -/
def held : List Call → Key → Bool
  | [] => fun _ => false
  | c :: past => c.leaves (held past)

/-- The keys that a call takes from released to pressed, in rising order. -/
def rises (past : List Call) (c : Call) : List Key :=
  (List.finRange 16).filter fun key => !held past key && held (c :: past) key

/-- The keys that go from released to pressed during some calls, the first first. -/
def risesIn (opened : List Call) : List Call → List Key
  | [] => []
  | c :: since => risesIn opened since ++ rises (since ++ opened) c

/-- The calls since the wait that is open was opened.  A check that finds no key opens a wait if
none is open; one that finds a key closes it. -/
def waiting : List Call → Option (List Call)
  | [] => none
  | .waitForKey :: past =>
    match answer past, waiting past with
    | some _, _ => none
    | none, none => some []
    | none, some since => some (.waitForKey :: since)
  | c :: past => (waiting past).map (c :: ·)

/-! ### One call -/

theorem key?_ok {number : Int} (valid : number = key.val) : key? number = .ok key := by
  have bounds : 0 ≤ number ∧ number < 16 := by
    have := key.isLt
    omega
  rw [key?, dif_pos bounds]
  congr 1
  exact Fin.ext (by simp [valid])

theorem key?_error {number : Int} (invalid : ∀ key : Key, number ≠ key.val) :
    key? number = .error (.badValue (.keyIndex (.int number))) := by
  refine dif_neg fun bounds => ?_
  exact invalid ⟨number.toNat, by omega⟩ (by simp; omega)

/-- A number names a key or none. -/
theorem key_or_none (number : Int) :
    (∃ key : Key, number = key.val) ∨ ∀ key : Key, number ≠ key.val :=
  (em (∃ key : Key, number = key.val)).imp_right fun none key named => none ⟨key, named⟩

theorem call_press {number : Int} (valid : number = key.val) :
    (k.call (.press number)).1 = k.setKey key true := by
  rw [call, press, key?_ok valid]
  rfl

theorem call_release {number : Int} (valid : number = key.val) :
    (k.call (.release number)).1 = k.setKey key false := by
  rw [call, release, key?_ok valid]
  rfl

theorem call_setKeys {states : List Bool} (length : states.length = 16) :
    (k.call (.setKeys states)).1 =
      (List.finRange 16).foldl (fun k key => k.setKey key (snapshot states key)) k := by
  rw [call, setKeys_ok length]

/-- A call with a number that names no key, or a snapshot of another length, is refused. -/
inductive Call.Invalid : Call → Prop
  | press {number : Int} : (∀ key : Key, number ≠ key.val) → Invalid (.press number)
  | release {number : Int} : (∀ key : Key, number ≠ key.val) → Invalid (.release number)
  | setKeys {states : List Bool} : states.length ≠ 16 → Invalid (.setKeys states)

theorem call_invalid {c : Call} (invalid : c.Invalid) :
    ∃ value, k.call c = (k, .error (.badValue value)) := by
  cases invalid with
  | press none =>
    rw [call, press, key?_error none]
    exact ⟨_, rfl⟩
  | release none =>
    rw [call, release, key?_error none]
    exact ⟨_, rfl⟩
  | setKeys length =>
    rw [call, setKeys, if_neg length]
    exact ⟨_, rfl⟩

theorem isDown_call (c : Call) : (k.call c).1.isDown = c.leaves k.isDown := by
  funext other
  cases c with
  | press number =>
    rcases key_or_none number with ⟨key, named⟩ | none
    · rw [call_press named, isDown_setKey]
      by_cases same : other = key
      · simp [Call.leaves, named, same]
      · have apart : ¬ (key.val : Int) = other.val := fun h => same (Fin.ext (by omega))
        simp [Call.leaves, named, same, apart]
    · obtain ⟨value, refused⟩ := call_invalid (k := k) (.press none)
      simp [refused, Call.leaves, none]
  | release number =>
    rcases key_or_none number with ⟨key, named⟩ | none
    · rw [call_release named, isDown_setKey]
      by_cases same : other = key
      · simp [Call.leaves, named, same]
      · have apart : ¬ (key.val : Int) = other.val := fun h => same (Fin.ext (by omega))
        simp [Call.leaves, named, same, apart]
    · obtain ⟨value, refused⟩ := call_invalid (k := k) (.release none)
      simp [refused, Call.leaves, none]
  | setKeys states =>
    by_cases length : states.length = 16
    · rw [call_setKeys length, isDown_foldl (List.nodup_finRange 16), if_pos (List.mem_finRange _)]
      simp [Call.leaves, length]
    · obtain ⟨value, refused⟩ := call_invalid (k := k) (.setKeys length)
      simp [refused, Call.leaves, length]
  | waitForKey =>
    rw [call, waitForKey]
    split <;> rfl

theorem state_call {c : Call} (other : c ≠ .waitForKey) : (k.call c).1.state = k.state := by
  cases c with
  | press number =>
    rcases key_or_none number with ⟨key, named⟩ | none
    · rw [call_press named, state_setKey]
    · obtain ⟨value, refused⟩ := call_invalid (k := k) (.press none)
      rw [refused]
  | release number =>
    rcases key_or_none number with ⟨key, named⟩ | none
    · rw [call_release named, state_setKey]
    · obtain ⟨value, refused⟩ := call_invalid (k := k) (.release none)
      rw [refused]
  | setKeys states =>
    by_cases length : states.length = 16
    · rw [call_setKeys length, state_foldl]
    · obtain ⟨value, refused⟩ := call_invalid (k := k) (.setKeys length)
      rw [refused]
  | waitForKey => exact absurd rfl other

theorem find?_only (key : Key) {p : Key → Bool} (only : ∀ other, p other = true → other = key) :
    (List.finRange 16).find? p = if p key then some key else none := by
  cases found : (List.finRange 16).find? p with
  | none =>
    have none_ := List.find?_eq_none.mp found key (List.mem_finRange key)
    rw [if_neg none_]
  | some other =>
    have holds := List.find?_some found
    obtain rfl := only other holds
    rw [if_pos holds]

/-- The first key that a call takes from released to pressed. -/
def firstRise (k : Keypad) (c : Call) : Option Key :=
  (List.finRange 16).find? fun key => !k.isDown key && c.leaves k.isDown key

theorem firstRise_none {c : Call}
    (held : ∀ key, c.leaves k.isDown key = true → k.isDown key = true) :
    k.firstRise c = none := by
  refine List.find?_eq_none.mpr fun key _ rise => ?_
  rw [Bool.and_eq_true, Bool.not_eq_true'] at rise
  exact Bool.false_ne_true (rise.1.symm.trans (held key rise.2))

theorem firstRise_press {number : Int} (named : number = key.val) :
    k.firstRise (.press number) = if !k.isDown key then some key else none := by
  rw [firstRise, find?_only key]
  · simp [Call.leaves, named]
  · intro other rise
    simp only [Call.leaves, named, Bool.and_eq_true, Bool.not_eq_true', Bool.or_eq_true,
      decide_eq_true_eq] at rise
    obtain ⟨up, same | down⟩ := rise
    · exact Fin.ext (by omega)
    · exact absurd (up.symm.trans down) Bool.false_ne_true

theorem firstRise_release (number : Int) : k.firstRise (.release number) = none := by
  refine firstRise_none fun key down => ?_
  simp only [Call.leaves, Bool.and_eq_true] at down
  exact down.2

/-- While a wait is open and no key is kept, a call has the first key kept that it takes from
released to pressed. -/
theorem latched_call {c : Call} (other : c ≠ .waitForKey) : (k.call c).1.latched =
    k.latched.or (if k.state = .awaiting then k.firstRise c else none) := by
  have refused_ : c.Invalid → k.firstRise c = none := fun invalid => by
    refine firstRise_none fun key down => ?_
    cases invalid with
    | press none => simpa [Call.leaves, none] using down
    | release none => simpa [Call.leaves, none] using down
    | setKeys length => simpa [Call.leaves, length] using down
  cases c with
  | press number =>
    rcases key_or_none number with ⟨key, named⟩ | none
    · rw [call_press named, latched_setKey, firstRise_press named]
      by_cases await : k.state = .awaiting <;> simp [await]
    · obtain ⟨value, refused⟩ := call_invalid (k := k) (.press none)
      rw [refused, refused_ (.press none), ite_self, Option.or_none]
  | release number =>
    rw [firstRise_release, ite_self, Option.or_none]
    rcases key_or_none number with ⟨key, named⟩ | none
    · rw [call_release named]
      rfl
    · obtain ⟨value, refused⟩ := call_invalid (k := k) (.release none)
      rw [refused]
  | setKeys states =>
    by_cases length : states.length = 16
    · rw [call_setKeys length, latched_foldl (List.nodup_finRange 16)]
      simp only [firstRise, Call.leaves, length, if_true]
    · obtain ⟨value, refused⟩ := call_invalid (k := k) (.setKeys length)
      rw [refused, refused_ (.setKeys length), ite_self, Option.or_none]
  | waitForKey => exact absurd rfl other

/-! ### All calls -/

theorem isDown_after (past : List Call) : (after past).isDown = held past := by
  induction past with
  | nil =>
    funext key
    exact isDown_fresh
  | cons c past ih => rw [after, isDown_call, ih, held]

theorem waitForKey_of_none (empty : k.latched = none) :
    k.waitForKey = (none, { k with state := .awaiting }) := by
  rw [waitForKey, empty]

theorem waitForKey_of_some (full : k.latched = some key) :
    k.waitForKey = (some key, { k with latched := none, state := .idle }) := by
  rw [waitForKey, full]

theorem answer_eq (past : List Call) : answer past = (after past).latched := by
  rw [answer]
  cases latched : (after past).latched with
  | none => rw [waitForKey_of_none latched]
  | some key => rw [waitForKey_of_some latched]

theorem head?_rises (past : List Call) (c : Call) :
    (rises past c).head? = (after past).firstRise c := by
  rw [rises, List.head?_filter, firstRise, isDown_after, held]

theorem rises_waitForKey (past : List Call) : rises past .waitForKey = [] := by
  refine List.filter_eq_nil_iff.mpr fun key _ => ?_
  simp [held, Call.leaves]

theorem waiting_cons {c : Call} (other : c ≠ .waitForKey) (past : List Call) :
    waiting (c :: past) = (waiting past).map (c :: ·) := by
  cases c with
  | waitForKey => exact absurd rfl other
  | _ => rfl

/-- What a keypad has of its history: whether a wait is open, and the first key that has gone from
released to pressed since then. -/
def Follows (k : Keypad) (past : List Call) : Prop :=
  match waiting past with
  | none => k.state = .idle ∧ k.latched = none
  | some since => k.state = .awaiting ∧
      ∃ opened, past = since ++ opened ∧ k.latched = (risesIn opened since).head?

theorem Follows.call {c : Call} (other : c ≠ .waitForKey) {past : List Call}
    (follows : (after past).Follows past) : (after (c :: past)).Follows (c :: past) := by
  rw [Follows, waiting_cons other, after]
  rw [Follows] at follows
  cases open_ : waiting past with
  | none =>
    rw [open_] at follows
    obtain ⟨idle, none_⟩ := follows
    exact ⟨by rw [state_call other, idle], by rw [latched_call other, idle, none_]; rfl⟩
  | some since =>
    rw [open_] at follows
    obtain ⟨await, opened, split, first⟩ := follows
    refine ⟨by rw [state_call other, await], opened, congrArg (c :: ·) split, ?_⟩
    rw [latched_call other, if_pos await, first, risesIn, List.head?_append, ← split, head?_rises]

/-- **A keypad keeps the first key of its open wait.** -/
theorem after_follows (past : List Call) : (after past).Follows past := by
  induction past with
  | nil => exact ⟨rfl, rfl⟩
  | cons c past ih =>
    by_cases check : c = .waitForKey
    · subst check
      have answered := answer_eq past
      rw [Follows, waiting, after, Keypad.call]
      cases latched : (after past).latched with
      | some key =>
        rw [answered, latched, waitForKey_of_some latched]
        exact ⟨rfl, rfl⟩
      | none =>
        rw [answered, latched, waitForKey_of_none latched]
        cases open_ : waiting past with
        | none => exact ⟨rfl, .waitForKey :: past, rfl, latched⟩
        | some since =>
          rw [Follows, open_] at ih
          obtain ⟨-, opened, split, first⟩ := ih
          refine ⟨rfl, opened, congrArg (_ :: ·) split, ?_⟩
          rw [risesIn, rises_waitForKey, List.append_nil]
          exact first
    · exact ih.call check

/-! ## Waits -/

theorem answer_iff (past : List Call) (key : Key) : answer past = some key ↔
    ∃ since opened, waiting past = some since ∧ past = since ++ opened ∧
      (risesIn opened since).head? = some key := by
  have follows := after_follows past
  rw [answer_eq]
  rw [Follows] at follows
  cases open_ : waiting past with
  | none =>
    rw [open_] at follows
    simp [follows.2]
  | some since =>
    rw [open_] at follows
    obtain ⟨-, opened, split, first⟩ := follows
    constructor
    · intro latched
      exact ⟨since, opened, rfl, split, first.symm.trans latched⟩
    · rintro ⟨_, opened', ⟨⟩, split', first'⟩
      obtain rfl := List.append_cancel_left (split.symm.trans split')
      exact first.trans first'

theorem mem_risesIn {opened since : List Call} (rise : key ∈ risesIn opened since) :
    ∃ later c sooner, since = later ++ c :: sooner ∧ key ∈ rises (sooner ++ opened) c := by
  induction since with
  | nil => cases rise
  | cons c since ih =>
    rcases List.mem_append.mp rise with before | now
    · obtain ⟨later, c', sooner, rfl, rises⟩ := ih before
      exact ⟨c :: later, c', sooner, rfl, rises⟩
    · exact ⟨[], c, since, rfl, now⟩

/-- A call that presses a key: a press of it, or a snapshot that has it down. -/
def Call.Presses (c : Call) (key : Key) : Prop :=
  c = .press key.val ∨
    ∃ states, c = .setKeys states ∧ states.length = 16 ∧ states[key.val]? = some true

theorem mem_rises {past : List Call} {c : Call} (rise : key ∈ rises past c) :
    held past key = false ∧ c.Presses key := by
  rw [rises, List.mem_filter, Bool.and_eq_true, Bool.not_eq_true'] at rise
  obtain ⟨-, up, down⟩ := rise
  refine ⟨up, ?_⟩
  rw [held] at down
  cases c with
  | press number =>
    simp only [Call.leaves, up, Bool.or_false, decide_eq_true_eq] at down
    exact .inl (congrArg _ down)
  | release number => simp [Call.leaves, up] at down
  | setKeys states =>
    by_cases length : states.length = 16
    · simp only [Call.leaves, length, if_true, snapshot] at down
      refine .inr ⟨states, rfl, length, ?_⟩
      have inside : key.val < states.length := by
        have := key.isLt
        omega
      rw [List.getD_eq_getElem?_getD, List.getElem?_eq_getElem inside] at down
      rw [List.getElem?_eq_getElem inside]
      exact congrArg some down
    · simp [Call.leaves, length, up] at down
  | waitForKey => simp [Call.leaves, up] at down

/-- How the waits of a keypad come out that has got some calls. -/
structure Delivers (past : List Call) : Prop where
  /-- A check answers the key that went first from released to pressed since its wait was opened,
  and nothing if there is none or no wait is open. -/
  exact : ∀ key, answer past = some key ↔ ∃ since opened, waiting past = some since ∧
    past = since ++ opened ∧ (risesIn opened since).head? = some key
  /-- The answer closes the wait. -/
  closes : ∀ key, answer past = some key → waiting (.waitForKey :: past) = none
  /-- A call that is invalid is refused and changes nothing. -/
  refused : ∀ c, c.Invalid → after (c :: past) = after past ∧
    ∃ value, ((after past).call c).2 = .error (.badValue value)
  /-- The key that is answered was up after the wait was opened, and pressed then. -/
  pressed : ∀ key since opened, waiting past = some since → past = since ++ opened →
    answer past = some key → ∃ later c sooner, since = later ++ c :: sooner ∧
      held (sooner ++ opened) key = false ∧ c.Presses key
  /-- Another press of a key that is down makes no difference to what a check answers. -/
  repeated : ∀ key : Key, held past key = true → answer (.press key.val :: past) = answer past
  /-- Nor does a release. -/
  released : ∀ number, answer (.release number :: past) = answer past
  /-- A key that is pressed and released again before the next check is answered by it. -/
  tapped : ∀ key : Key, (waiting past).isSome → answer past = none → held past key = false →
    answer (.release key.val :: .press key.val :: past) = some key

theorem answer_cons {c : Call} (other : c ≠ .waitForKey) (past : List Call) :
    answer (c :: past) = (answer past).or
      (if (after past).state = .awaiting then (after past).firstRise c else none) := by
  rw [answer_eq, answer_eq, after, latched_call other]

theorem answer_release (number : Int) (past : List Call) :
    answer (.release number :: past) = answer past := by
  rw [answer_cons (by simp), firstRise_release, ite_self, Option.or_none]

theorem answer_press (key : Key) (past : List Call) : answer (.press key.val :: past) =
    (answer past).or
      (if (after past).state = .awaiting ∧ held past key = false then some key else none) := by
  rw [answer_cons (by simp), firstRise_press rfl, isDown_after]
  cases held past key <;> simp

theorem awaiting_of_waiting {past : List Call} (open_ : (waiting past).isSome) :
    (after past).state = .awaiting := by
  obtain ⟨since, open_⟩ := Option.isSome_iff_exists.mp open_
  have follows := after_follows past
  rw [Follows, open_] at follows
  exact follows.1

/-- **Every wait delivers the first key that goes from released to pressed while it is open**, and
nothing else. -/
theorem waits_deliver (past : List Call) : Delivers past where
  exact := answer_iff past
  closes key answered := by rw [waiting, answered]
  refused c invalid := by
    obtain ⟨value, refused⟩ := call_invalid (k := after past) invalid
    rw [after, refused]
    exact ⟨rfl, value, rfl⟩
  pressed key since opened open_ split answered := by
    obtain ⟨since', opened', open', split', first⟩ := (answer_iff past key).mp answered
    obtain rfl := Option.some.inj (open_.symm.trans open')
    obtain rfl := List.append_cancel_left (split.symm.trans split')
    obtain ⟨later, c, sooner, parts, rise⟩ := mem_risesIn (List.mem_of_head? first)
    exact ⟨later, c, sooner, parts, mem_rises rise⟩
  repeated key down := by simp [answer_press, down]
  released number := answer_release number past
  tapped key open_ unanswered up := by
    rw [answer_release, answer_press, unanswered, awaiting_of_waiting open_, up]
    rfl

/-- Key 3 is held when the wait is opened, key 5 is tapped before key 1. -/
example : answer [.press 1, .press 3, .release 5, .press 5, .waitForKey, .press 3] = some 5 := by
  decide

end Keypad
end ChipEight
