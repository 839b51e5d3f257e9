import ChipEight.Config.Storage
import ChipEight.Proofs.Merging
/-! # Settings stay valid

Validation sees what one load brings, and that alone.  Nevertheless the settings that have come
together from many loads are valid (`Config.Valid`): a load that is refused leaves them as they are,
and one that is accepted brings nothing into a section that its rules would not accept there
(`Config.Valid.merge`).  So whatever is loaded describes a machine (`Config.Valid.loads`,
`Config.Valid.describes`). -/

namespace ChipEight.Config

open Datum

/-! ## What is accepted -/

def rules : List Rule := rulesBeforeKeymap ++ rulesBehindKeymap

/-- Nothing is wrong with a user's settings. -/
structure Accepted (root : Datum) : Prop where
  machine : checkMachine root = .ok []
  rules : ∀ rule ∈ rules, rule.check root = .ok []
  keymap : checkKeymap root = .ok []

/-- Nothing is found if each check returns and finds nothing. -/
theorem mapM_flatten_eq_nil {α β ε : Type} {check : α → Except ε (List β)} {xs : List α} :
    (∃ found, xs.mapM check = .ok found ∧ found.flatten = []) ↔ ∀ x ∈ xs, check x = .ok [] := by
  induction xs with
  | nil => simp [pure, Except.pure]
  | cons x xs ih =>
    rw [List.forall_mem_cons, ← ih, List.mapM_cons]
    cases check x with
    | error e => simp [bind, Except.bind]
    | ok ys =>
      cases xs.mapM check with
      | error e => simp [bind, Except.bind]
      | ok found => simp [bind, Except.bind, pure, Except.pure]

theorem accepted_of_validate {root : Datum} (h : validate root = .ok []) : Accepted root := by
  rw [validate] at h
  cases machine : checkMachine root with
  | error e =>
    rw [machine] at h
    cases h
  | ok kind =>
    cases before : rulesBeforeKeymap.mapM (·.check root) with
    | error e =>
      simp only [machine, before] at h
      cases h
    | ok first =>
      cases keymap : checkKeymap root with
      | error e =>
        simp only [machine, before, keymap] at h
        cases h
      | ok keys =>
        cases behind : rulesBehindKeymap.mapM (·.check root) with
        | error e =>
          simp only [machine, before, keymap, behind] at h
          cases h
        | ok rest =>
          simp only [machine, before, keymap, behind, bind, Except.bind, pure, Except.pure,
            Except.ok.injEq, List.append_eq_nil_iff] at h
          obtain ⟨⟨⟨rfl, noneFirst⟩, rfl⟩, noneRest⟩ := h
          refine ⟨machine, fun rule mem => ?_, keymap⟩
          rcases List.mem_append.mp mem with mem | mem
          · exact mapM_flatten_eq_nil.mp ⟨first, before, noneFirst⟩ rule mem
          · exact mapM_flatten_eq_nil.mp ⟨rest, behind, noneRest⟩ rule mem

/-- A value in a section is one that a rule accepts, if it is the one that the rule speaks of. -/
def Rule.Obeyed (rule : Rule) (settings : List (Datum × Datum)) : Prop :=
  ∀ section_ value, lookup (.text rule.group) settings = some (.dict section_) →
    lookup (.text rule.setting) section_ = some value → rule.accepts value = true

variable {settings : List (Datum × Datum)} {c : Config} {user : Datum}

theorem Rule.obeyed_of_check {rule : Rule} (h : rule.check (.dict settings) = .ok []) :
    rule.Obeyed settings := by
  intro section_ value group there
  simp only [Rule.check, Datum.getD, group, Option.getD_some, Datum.contains, there,
    Option.isSome_some, Datum.index, bind, Except.bind, if_true] at h
  split at h
  · assumption
  · cases h

theorem machine_of_check (h : checkMachine (.dict settings) = .ok []) {kind : Datum}
    (there : lookup (.text "machine") settings = some kind) : kind = .text "chip8" := by
  simp only [checkMachine, Datum.contains, there, Option.isSome_some, Datum.index, bind,
    Except.bind, if_true] at h
  split at h
  · split at h
    · rename_i known
      cases kind with
      | text name => simpa [isOneOf, machines] using known
      | _ => cases known
    · cases h
  · cases h

/-- Each value of the mapping is the number of a key. -/
def Keys (keymap : Datum) : Prop :=
  ∃ entries, keymap = .dict entries ∧ ∀ entry ∈ entries, isKeyIndex entry.2 = true

theorem keymap_of_check (h : checkKeymap (.dict settings) = .ok []) {keymap : Datum}
    (there : lookup (.text "keymap") settings = some keymap) : Keys keymap := by
  simp only [checkKeymap, Datum.contains, there, Option.isSome_some, Datum.index, bind,
    Except.bind, if_true] at h
  cases keymap with
  | dict entries =>
    refine ⟨entries, rfl, fun entry mem => ?_⟩
    have refused := List.filterMap_eq_nil_iff.mp (Except.ok.inj h) entry mem
    split at refused
    · assumption
    · cases refused
  | _ => cases h

/-! ## Settings that have come together -/

/-- The machine is of the known kind, the keymap maps to keys, and no section has a setting that its
rule would refuse. -/
structure Valid (c : Config) : Prop where
  machine : lookup (.text "machine") c.settings = some (.text "chip8")
  keymap : ∃ keymap, lookup (.text "keymap") c.settings = some keymap ∧ Keys keymap
  rules : ∀ rule ∈ rules, rule.Obeyed c.settings

theorem valid_default : Valid default := by
  have accepted := @accepted_of_validate default.toDatum rfl
  exact ⟨rfl, ⟨_, rfl, keymap_of_check accepted.keymap rfl⟩,
    fun rule mem => Rule.obeyed_of_check (accepted.rules rule mem)⟩

theorem valid_rules : ∀ rule ∈ rules, rule.group ≠ "keymap" ∧
    ∀ entries, rule.accepts (.dict entries) = false := by
  simp [rules, rulesBeforeKeymap, rulesBehindKeymap, isPositiveInt, isSeed, isRate, isTruth,
    isOneOf]

/-- What is merged in obeys a rule as what was there. -/
theorem Rule.Obeyed.merge {rule : Rule} {given : List (Datum × Datum)}
    (flat : ∀ entries, rule.accepts (.dict entries) = false) (obeyed : rule.Obeyed settings)
    (theirs : rule.Obeyed given) (proper : (Datum.dict given).Proper) :
    rule.Obeyed (mergeEntries true given settings) := by
  obtain ⟨distinct, inside⟩ := proper
  intro section_ value group there
  rw [lookup_mergeEntries distinct] at group
  cases mine : lookup (.text rule.group) given with
  | none =>
    rw [mine] at group
    exact obeyed section_ value group there
  | some brought =>
    simp only [mine] at group
    rcases mergeValue_cases true (.text rule.group) brought
        (lookup (.text rule.group) settings) with
      same | ⟨user, old, rfl, before, -, merged⟩
    · rw [same] at group
      cases group
      exact theirs section_ value mine there
    · rw [merged] at group
      cases group
      have distinct : Distinct user := (inside.lookup mine).1
      rw [lookup_mergeEntries distinct] at there
      cases inner : lookup (.text rule.setting) user with
      | none =>
        rw [inner] at there
        exact obeyed old value before there
      | some new =>
        simp only [inner] at there
        have accepted := theirs user new mine inner
        -- no rule accepts a mapping, so the new value is not merged with the old one
        rcases mergeValue_cases (true && !(Datum.text rule.group).truthy) (.text rule.setting) new
            (lookup (.text rule.setting) old) with same | ⟨deeper, _, rfl, -, -, -⟩
        · rw [same] at there
          cases there
          exact accepted
        · rw [flat] at accepted
          cases accepted

/-- **A load that is accepted keeps the settings valid.** -/
theorem Valid.merge {given : List (Datum × Datum)} (valid : Valid c)
    (accepted : Accepted (.dict given)) (proper : (Datum.dict given).Proper) :
    Valid (c.merge given) := by
  have distinct : Distinct given := proper.1
  refine ⟨?_, ?_, fun rule mem => ?_⟩
  · rw [Config.merge, lookup_mergeEntries distinct]
    cases mine : lookup (.text "machine") given with
    | none => exact valid.machine
    | some kind =>
      obtain rfl := machine_of_check accepted.machine mine
      rcases mergeValue_cases true (.text "machine") (.text "chip8")
          (lookup (.text "machine") c.settings) with same | ⟨_, _, impossible, -⟩
      · exact congrArg some same
      · cases impossible
  · rw [Config.merge, lookup_mergeEntries distinct]
    cases mine : lookup (.text "keymap") given with
    | none => exact valid.keymap
    | some keymap =>
      have named : namesKeymap true (.text "keymap") = true := rfl
      have whole := mergeValue_keymap named keymap (lookup (.text "keymap") c.settings)
      exact ⟨keymap, congrArg some whole, keymap_of_check accepted.keymap mine⟩
  · exact (valid.rules rule mem).merge (valid_rules rule mem).2
      (Rule.obeyed_of_check (accepted.rules rule mem)) proper

/-- A load that is refused, or fails, leaves the settings as they are. -/
theorem loadDatum_cases (c : Config) (user : Datum) : (c.loadDatum user).1 = c ∨
    ∃ given, user = .dict given ∧ Accepted user ∧ (c.loadDatum user).1 = c.merge given := by
  rw [loadDatum, accept]
  cases validated : validate user with
  | error e => exact .inl rfl
  | ok problems =>
    cases problems with
    | nil =>
      cases user with
      | dict given => exact .inr ⟨given, rfl, accepted_of_validate validated, rfl⟩
      | _ => exact .inl rfl
    | cons problem rest => exact .inl rfl

/-- The configuration after loads, whatever comes of them. -/
def loads (c : Config) (users : List Datum) : Config :=
  users.foldl (fun c user => (c.loadDatum user).1) c

theorem Valid.loads {users : List Datum} (valid : Valid c) (proper : ∀ user ∈ users, user.Proper) :
    Valid (c.loads users) := by
  induction users generalizing c with
  | nil => exact valid
  | cons user users ih =>
    rw [List.forall_mem_cons] at proper
    have first : Valid (c.loadDatum user).1 := by
      rcases c.loadDatum_cases user with same | ⟨given, rfl, accepted, merged⟩
      · rwa [same]
      · rw [merged]
        exact valid.merge accepted proper.1
    exact ih first proper.2

/-! ## The machine that is described -/

/-- What is read under a group and a setting: the value there, else what to take instead. -/
theorem get_pair {key group setting : String} (names : path key = [group, setting]) (c : Config)
    (fallback : Datum) : c.get key fallback =
      match lookup (.text group) c.settings with
      | some (.dict section_) => (lookup (.text setting) section_).getD fallback
      | _ => fallback := by
  rw [get, names, toDatum]
  cases there : lookup (.text group) c.settings with
  | none => simp only [valueAt, Datum.index, there, bind, Except.bind]
  | some section_ =>
    cases section_ with
    | dict entries =>
      cases inner : lookup (.text setting) entries <;>
        simp only [valueAt, Datum.index, there, inner, bind, Except.bind, Option.getD]
    | _ => simp only [valueAt, Datum.index, there, bind, Except.bind]

theorem get_single (key : String) {name : String} (names : path key = [name]) {value : Datum}
    (there : lookup (.text name) c.settings = some value) (fallback : Datum) :
    c.get key fallback = value := by
  rw [get, names, toDatum]
  simp only [valueAt, Datum.index, there, bind, Except.bind]

/-- What a rule speaks of is read as something that it accepts. -/
theorem Valid.get (valid : Valid c) (rule : Rule) (mem : rule ∈ Config.rules) (key : String)
    (names : path key = [rule.group, rule.setting]) (fallback : Datum)
    (accepted : rule.accepts fallback = true) : rule.accepts (c.get key fallback) = true := by
  rw [get_pair names]
  split
  · rename_i section_ group
    cases there : lookup (.text rule.setting) section_ with
    | none => exact accepted
    | some value => exact valid.rules rule mem section_ value group there
  · exact accepted

theorem of_isPositiveInt {d : Datum} (h : isPositiveInt d = true) :
    ∃ i : Int, 0 < i ∧ d = .int i := by
  match d, h with
  | .number (.int i), positive => exact ⟨i, of_decide_eq_true positive, rfl⟩

theorem of_isRate {d : Datum} (h : isRate d = true) :
    ∃ rate : Number, rate.le (.int 0) = false ∧ d = .number rate := by
  match d, h with
  | .number rate, above => exact ⟨rate, (Bool.not_eq_true' _).mp above, rfl⟩

theorem of_isSeed {d : Datum} (h : isSeed d = true) : d = .null ∨ ∃ i : Int, d = .int i := by
  match d, h with
  | .null, _ => exact .inl rfl
  | .number (.int i), _ => exact .inr ⟨i, rfl⟩

theorem of_isKeyIndex {d : Datum} (h : isKeyIndex d = true) :
    ∃ key : Int, 0 ≤ key ∧ key < 16 ∧ d = .int key := by
  match d, h with
  | .number (.int i), inside =>
    rw [isKeyIndex, Bool.and_eq_true, decide_eq_true_iff, decide_eq_true_iff] at inside
    exact ⟨i, inside.1, inside.2, rfl⟩

/-- The values that a machine can be built from: its clock, its seed and its keys are of the right
kind, and what is not for the user is as it is in the known machine. -/
structure Describes (machine : Datum) : Prop where
  clock : ∃ hz : Int, 0 < hz ∧ machine.field? "cpu_freq_hz" = some (.int hz)
  rate : ∃ rate : Number, rate.le (.int 0) = false ∧
    machine.field? "timer_freq_hz" = some (.number rate)
  seed : machine.field? "random_seed" = some .null ∨
    ∃ seed : Int, machine.field? "random_seed" = some (.int seed)
  keymap : ∃ keymap, machine.field? "keymap" = some (.dict keymap) ∧
    ∀ entry ∈ keymap, ∃ key : Int, 0 ≤ key ∧ key < 16 ∧ entry.2 = .int key
  fixed : ∀ name ∈ ["memory_size", "program_start", "stack_depth", "resolution"],
    machine.field? name = (machines.lookup "chip8").bind fun known => known.fixed.field? name

theorem Valid.machine_eq (valid : Valid c) : ∃ keymap, Keys (.dict keymap) ∧
    c.machine = .ok (.record [
      ("cpu_freq_hz", c.get "cpu.clock_hz" (.int defaultClock)),
      ("timer_freq_hz", c.get "timers.rate_hz" (.int defaultTimerRate)),
      ("memory_size", .int defaultMemorySize), ("program_start", .int defaultProgramStart),
      ("stack_depth", .int defaultStackDepth),
      ("resolution", .list [.int defaultWidth, .int defaultHeight]),
      ("random_seed", c.get "cpu.random_seed" .null), ("keymap", .dict keymap)]) := by
  obtain ⟨keymap, there, keymap, rfl, keys⟩ := valid.keymap
  have kind := get_single "machine" rfl valid.machine (.text "chip8")
  have mapped := get_single "keymap" rfl there defaultKeys
  refine ⟨keymap, ⟨keymap, rfl, keys⟩, ?_⟩
  rw [Config.machine, kind, mapped]
  rfl

theorem Valid.describes (valid : Valid c) :
    ∃ machine, c.machine = .ok machine ∧ Describes machine := by
  obtain ⟨keymap, ⟨_, ⟨⟩, keys⟩, machine⟩ := valid.machine_eq
  obtain ⟨hz, positive, clock⟩ := of_isPositiveInt <|
    valid.get ⟨"cpu", "clock_hz", isPositiveInt, _⟩ (.head _) "cpu.clock_hz" rfl
      (.int defaultClock) rfl
  obtain ⟨rate, above, rated⟩ := of_isRate <|
    valid.get ⟨"timers", "rate_hz", isRate, _⟩ (.tail _ (.tail _ (.head _))) "timers.rate_hz" rfl
      (.int defaultTimerRate) rfl
  have seed := of_isSeed <|
    valid.get ⟨"cpu", "random_seed", isSeed, _⟩ (.tail _ (.head _)) "cpu.random_seed" rfl .null rfl
  rw [clock, rated] at machine
  refine ⟨_, machine, ⟨hz, positive, rfl⟩, ⟨rate, above, rfl⟩, ?_,
    ⟨keymap, rfl, fun entry mem => of_isKeyIndex (keys entry mem)⟩, ?_⟩
  · rcases seed with none_ | ⟨seed, some_⟩
    · exact .inl (congrArg some none_)
    · exact .inr ⟨seed, congrArg some some_⟩
  · intro name mem
    simp only [List.mem_cons, List.not_mem_nil, or_false] at mem
    rcases mem with rfl | rfl | rfl | rfl <;> rfl

/-- **What is loaded describes a machine.**  Whatever settings are loaded one after the other, into
the default ones, and whichever of them are refused: the machine that they describe in the end can
be built. -/
theorem loads_describe {users : List Datum} (proper : ∀ user ∈ users, user.Proper) :
    ∃ machine, (default.loads users).machine = .ok machine ∧ Describes machine :=
  (valid_default.loads proper).describes

/-- A text in place of a section, a seed in place of the text, a clock that is refused, a section
that cannot be asked, and keys of its own. -/
def changeable : List Datum := [
  .record [("cpu", .text "fast"), ("timers", .list [])],
  .record [("cpu", .record [("random_seed", .int 7)]), ("sound", .bool true)],
  .record [("cpu", .record [("clock_hz", .int (-1))])],
  .record [("cpu", .int 5)],
  .record [("keymap", .record [("p", .int 15)]), ("machine", .text "chip8")]]

theorem loads_describe_changeable : (∀ user ∈ changeable, user.Proper) ∧
    ∃ machine, (default.loads changeable).machine = .ok machine ∧ Describes machine := by
  have proper : ∀ user ∈ changeable, user.Proper := by decide
  exact ⟨proper, loads_describe proper⟩

end ChipEight.Config
