import ChipEight.Proofs.Amounts
import ChipEight.Proofs.Askable
import ChipEight.Proofs.DottedPaths
/-! # What a load brings, keeps and replaces

A load that is not granted changes nothing.  One that is granted is seen along paths: what the user
gives is there (`Config.found_merge`), what was there and the user does not speak of has stayed
(`Config.found_merge_of_left`), and a second load of the same changes nothing
(`Config.mergeEntries_again`).  For the last each value is looked up again under its key: keys are
one if they are known by one (`Datum.sameKey_iff`). -/

namespace ChipEight

namespace Datum

variable {a b k key key' value : Datum} {entries : List (Datum × Datum)}

/-! ## Keys -/

/-- What a key is known by: a number by its place, and what is not a number by having none. -/
inductive Identity where
  | null
  | text (s : String)
  | number (place? : Option Number.Place)

def identity? : Datum → Option Identity
  | null => some .null
  | bool b => some (.number (Number.int (if b then 1 else 0)).place?)
  | number n => some (.number n.place?)
  | text s => some (.text s)
  | _ => none

theorem isNaN_number (n : Number) : (number n).isNaN = true ↔ n.place? = none := by
  cases n with
  | int i => simp [isNaN, Number.place?]
  | float f => exact (Number.place?_eq_none f).symm

theorem sameKey_numbers (m n : Number) : (number m).sameKey (number n) = true ↔
    some (Identity.number m.place?) = some (.number n.place?) := by
  rw [sameKey, same, Bool.or_eq_true, Bool.and_eq_true, isNaN_number, isNaN_number,
    Number.same_iff, Option.some.injEq, Identity.number.injEq]
  cases m.place? <;> cases n.place? <;> simp [eq_comm]

/-- **Keys are one that are known by one.** -/
theorem sameKey_iff (isKey : b.isKey = true) :
    a.sameKey b = true ↔ a.identity? = b.identity? := by
  cases b with
  | list _ | dict _ => cases isKey
  | null => cases a <;> simp [sameKey, same, isNaN, identity?]
  | text s => cases a <;> simp [sameKey, same, isNaN, identity?]
  | number n =>
    cases a with
    | number m => exact sameKey_numbers m n
    | bool b => exact sameKey_numbers _ n
    | null | text _ | list _ | dict _ => simp [sameKey, same, isNaN, identity?]
  | bool b =>
    cases a with
    | number m =>
      have one := sameKey_numbers m (.int (if b then 1 else 0))
      simpa [sameKey, same, isNaN, identity?] using one
    | bool b' => cases b <;> cases b' <;> simp [sameKey, same, isNaN, identity?, Number.place?]
    | null | text _ | list _ | dict _ => simp [sameKey, same, isNaN, identity?]

mutual

/-- All keys of a mapping can be keys, and those of the mappings inside of it. -/
def Keyed : Datum → Prop
  | dict entries => KeyedEntries entries
  | _ => True

def KeyedEntries : List (Datum × Datum) → Prop
  | [] => True
  | (key, value) :: rest => key.isKey = true ∧ value.Keyed ∧ KeyedEntries rest

end

theorem KeyedEntries.of_mem (keyed : KeyedEntries entries) (mem : (key, value) ∈ entries) :
    key.isKey = true := by
  induction entries with
  | nil => cases mem
  | cons entry rest ih =>
    obtain ⟨k, v⟩ := entry
    rw [KeyedEntries] at keyed
    rcases List.mem_cons.mp mem with same | mem
    · cases same
      exact keyed.1
    · exact ih keyed.2.2 mem

/-- To put under a key what is there already changes nothing. -/
theorem insert_of_lookup (there : lookup key entries = some value) :
    insert key value entries = entries := by
  induction entries with
  | nil => cases there
  | cons entry rest ih =>
    obtain ⟨k, v⟩ := entry
    rw [lookup] at there
    rw [insert]
    split at there
    · cases there
      rw [if_pos ‹_›]
    · rw [if_neg ‹_›, ih there]

theorem lookup_insert_self (isKey : key.isKey = true) (value : Datum)
    (entries : List (Datum × Datum)) : lookup key (insert key value entries) = some value := by
  induction entries with
  | nil => exact if_pos ((sameKey_iff isKey).mpr rfl)
  | cons entry rest ih =>
    obtain ⟨k, v⟩ := entry
    rw [insert]
    split
    · rw [lookup, if_pos ‹_›]
    · rw [lookup, if_neg ‹_›, ih]

theorem lookup_insert_other (isKey : key.isKey = true) (isKey' : key'.isKey = true)
    (other : ¬ key.sameKey key' = true) (value : Datum) (entries : List (Datum × Datum)) :
    lookup key' (insert key value entries) = lookup key' entries := by
  rw [sameKey_iff isKey'] at other
  induction entries with
  | nil => exact if_neg (mt (sameKey_iff isKey').mp other)
  | cons entry rest ih =>
    obtain ⟨k, v⟩ := entry
    rw [insert]
    split
    · rename_i mine
      have not_mine : ¬ k.sameKey key' = true := fun same =>
        other (((sameKey_iff isKey).mp mine).symm.trans ((sameKey_iff isKey').mp same))
      rw [lookup, lookup, if_neg not_mine, if_neg not_mine]
    · rw [lookup, lookup, ih]

/-- Each entry of a mapping is found under its key. -/
theorem lookup_of_entry (distinct : Distinct entries) (keyed : KeyedEntries entries)
    (mem : (key, value) ∈ entries) : lookup key entries = some value := by
  induction entries with
  | nil => cases mem
  | cons entry rest ih =>
    obtain ⟨k, v⟩ := entry
    obtain ⟨once, distinct⟩ := List.pairwise_cons.mp distinct
    rw [KeyedEntries] at keyed
    rw [lookup]
    rcases List.mem_cons.mp mem with same | mem
    · cases same
      rw [if_pos ((sameKey_iff keyed.1).mpr rfl)]
    · have other : ¬ k.sameKey key = true := Bool.eq_false_iff.mp (once _ mem)
      rw [if_neg other, ih distinct keyed.2.2 mem]

end Datum

namespace Config

open Datum

variable {c : Config} {key value : Datum} {old user given : List (Datum × Datum)} {top : Bool}
  {names : List String}

/-! ## A second time -/

/-- A merge leaves alone what it does not speak of. -/
theorem lookup_mergeEntries_of_absent (keyed : KeyedEntries user) (isKey : key.isKey = true)
    (absent : ∀ entry ∈ user, ¬ entry.1.sameKey key = true) (top : Bool)
    (old : List (Datum × Datum)) :
    lookup key (mergeEntries top user old) = lookup key old := by
  induction user generalizing old with
  | nil => rw [mergeEntries]
  | cons entry rest ih =>
    obtain ⟨k, v⟩ := entry
    rw [KeyedEntries] at keyed
    rw [List.forall_mem_cons] at absent
    rw [mergeEntries, ih keyed.2.2 absent.2, lookup_insert_other keyed.1 isKey absent.1]

/-- A merge looks into each mapping, whatever its keys are. -/
theorem lookup_mergeEntries_of_mem (distinct : Distinct user) (keyed : KeyedEntries user)
    (mem : (key, value) ∈ user) (top : Bool) (old : List (Datum × Datum)) :
    lookup key (mergeEntries top user old) =
      some (mergeValue top key value (lookup key old)) := by
  induction user generalizing old with
  | nil => cases mem
  | cons entry rest ih =>
    obtain ⟨k, v⟩ := entry
    obtain ⟨once, distinct⟩ := List.pairwise_cons.mp distinct
    have isKey := keyed.of_mem mem
    rw [KeyedEntries] at keyed
    rw [mergeEntries]
    rcases List.mem_cons.mp mem with same | mem
    · cases same
      have absent : ∀ entry ∈ rest, ¬ entry.1.sameKey key = true := fun entry mem same => by
        have other := keyed.2.2.of_mem mem
        have again := (sameKey_iff other).mpr ((sameKey_iff isKey).mp same).symm
        rw [once _ mem] at again
        cases again
      rw [lookup_mergeEntries_of_absent keyed.2.2 isKey absent, lookup_insert_self isKey]
    · have other : ¬ k.sameKey key = true := Bool.eq_false_iff.mp (once _ mem)
      rw [ih distinct keyed.2.2 mem, lookup_insert_other keyed.1 isKey other]

/-- A merge changes nothing where each of its values is there already. -/
theorem mergeEntries_of_there (there : ∀ entry ∈ user, ∃ value, lookup entry.1 old = some value ∧
    mergeValue top entry.1 entry.2 (some value) = value) : mergeEntries top user old = old := by
  induction user with
  | nil => rw [mergeEntries]
  | cons entry rest ih =>
    obtain ⟨key, given⟩ := entry
    rw [List.forall_mem_cons] at there
    obtain ⟨⟨value, found_, merged⟩, there⟩ := there
    rw [mergeEntries, found_, merged, insert_of_lookup found_, ih there]

/-- To merge a value in a second time changes nothing. -/
def Settles (value : Datum) : Prop := ∀ top key old,
  mergeValue top key value (some (mergeValue top key value old)) = mergeValue top key value old

theorem mergeEntries_of_settles (distinct : Distinct user) (keyed : KeyedEntries user)
    (settles : ∀ entry ∈ user, Settles entry.2) (top : Bool) (old : List (Datum × Datum)) :
    mergeEntries top user (mergeEntries top user old) = mergeEntries top user old :=
  mergeEntries_of_there fun entry mem =>
    ⟨_, lookup_mergeEntries_of_mem distinct keyed mem top old, settles entry mem _ _ _⟩

/-- A mapping merged with itself stays as it is. -/
theorem mergeEntries_self (distinct : Distinct user) (keyed : KeyedEntries user)
    (settles : ∀ entry ∈ user, Settles entry.2) (top : Bool) : mergeEntries top user user = user :=
  mergeEntries_of_there fun entry mem => by
    have settled := settles entry mem top entry.1 none
    rw [mergeValue_none] at settled
    exact ⟨entry.2, lookup_of_entry distinct keyed mem, settled⟩

theorem plain_of_isKey (isKey : value.isKey = true) : Plain value := by
  rintro entries rfl
  cases isKey

theorem settles_of_plain (plain : Plain value) : Settles value := fun top key old => by
  rw [mergeValue_of_plain plain, mergeValue_of_plain plain]

theorem settles_mapping (distinct : Distinct user) (keyed : KeyedEntries user)
    (settles : ∀ entry ∈ user, Settles entry.2) : Settles (.dict user) := fun top key old => by
  rcases mergeValue_cases top key (.dict user) old with same | ⟨_, theirs, ⟨⟩, rfl, plain, merged⟩
  · rw [same]
    cases keymap : namesKeymap top key with
    | true => rw [mergeValue, if_pos keymap]
    | false => rw [mergeValue_mappings keymap, mergeEntries_self distinct keyed settles]
  · rw [merged, mergeValue_mappings plain, mergeEntries_of_settles distinct keyed settles]

mutual

theorem settles : (value : Datum) → value.Proper → value.Keyed → Settles value
  | .dict user, proper, keyed =>
    settles_mapping proper.1 keyed (settles_entries user proper.2 keyed)
  | .null, _, _ | .bool _, _, _ | .number _, _, _ | .text _, _, _ | .list _, _, _ =>
    settles_of_plain fun _ => Datum.noConfusion

theorem settles_entries : (user : List (Datum × Datum)) → ProperEntries user →
    KeyedEntries user → ∀ entry ∈ user, Settles entry.2
  | [], _, _ => List.forall_mem_nil _
  | (_, value) :: rest, proper, keyed => List.forall_mem_cons.mpr
    ⟨settles value proper.1 keyed.2.1, settles_entries rest proper.2 keyed.2.2⟩

end

/-- **A second merge of the same changes nothing.** -/
theorem mergeEntries_again (proper : (Datum.dict user).Proper) (keyed : KeyedEntries user)
    (top : Bool) (old : List (Datum × Datum)) :
    mergeEntries top user (mergeEntries top user old) = mergeEntries top user old :=
  mergeEntries_of_settles proper.1 keyed (settles_entries user proper.2 keyed) top old

/-! ## Along paths -/

/-- **What is given is there.** -/
theorem found_merge (proper : (Datum.dict user).Proper) (plain : Plain value) (some_ : names ≠ [])
    (brought : found names (.dict user) = some value) (top : Bool) (old : List (Datum × Datum)) :
    found names (.dict (mergeEntries top user old)) = some value := by
  induction names generalizing user top old with
  | nil => exact absurd rfl some_
  | cons name rest ih =>
    obtain ⟨inner, field, deeper⟩ := Option.bind_eq_some_iff.mp brought
    have given : lookup (.text name) user = some inner := field
    rw [found, field?, lookup_mergeEntries proper.1, given]
    dsimp only
    rw [Option.bind_some]
    rcases mergeValue_cases top (.text name) inner (lookup (.text name) old) with
      same | ⟨user', theirs, rfl, -, -, merged⟩
    · rwa [same]
    · rw [merged]
      refine ih (proper.2.lookup given) (fun last => ?_) deeper _ _
      rw [last] at deeper
      exact plain _ (Option.some.inj deeper).symm

/-- Only a mapping has anything along a path. -/
theorem mapping_of_found {d : Datum} (some_ : names ≠ []) (there : found names d = some value) :
    ∃ entries, d = .dict entries := by
  obtain ⟨name, rest, rfl⟩ := List.exists_cons_of_ne_nil some_
  cases d with
  | dict entries => exact ⟨entries, rfl⟩
  | _ => cases there

/-- **What the user does not speak of stays**: it is there along a path that first goes through the
user's mappings, none of them a keymap, and then leaves them. -/
theorem found_merge_of_left {before rest : List String} {name : String}
    {entries : List (Datum × Datum)} (proper : (Datum.dict user).Proper)
    (apart : top = true → ∀ first ∈ before.head?, first ≠ "" ∧ first ≠ "keymap")
    (along : found before (.dict user) = some (.dict entries))
    (lacks : lookup (.text name) entries = none)
    (there : found (before ++ name :: rest) (.dict old) = some value) :
    found (before ++ name :: rest) (.dict (mergeEntries top user old)) = some value := by
  induction before generalizing user old top with
  | nil =>
    obtain rfl : user = entries := by
      cases along
      rfl
    rw [List.nil_append, found, field?] at there ⊢
    rwa [lookup_mergeEntries proper.1, lacks]
  | cons first before ih =>
    obtain ⟨mine, given, along⟩ := Option.bind_eq_some_iff.mp along
    obtain ⟨theirs, was, deeper⟩ := Option.bind_eq_some_iff.mp there
    rw [field?] at given was
    obtain ⟨theirs, rfl⟩ := mapping_of_found (by simp) deeper
    obtain ⟨mine, rfl⟩ : ∃ inner, mine = .dict inner := by
      cases before with
      | nil => exact ⟨entries, Option.some.inj along⟩
      | cons next before => exact mapping_of_found (List.cons_ne_nil _ _) along
    have plain : namesKeymap top (.text first) = false := by
      cases top with
      | false => rfl
      | true =>
        rw [namesKeymap, Bool.true_and, same, beq_eq_false_iff_ne]
        exact (apart rfl first rfl).2
    have below : (top && !(Datum.text first).truthy) = false := by
      cases top with
      | false => rfl
      | true =>
        rw [Bool.true_and, Bool.not_eq_false', truthy, Bool.not_eq_true', String.isEmpty_eq_false_iff]
        exact (apart rfl first rfl).1
    rw [List.cons_append, found, field?, lookup_mergeEntries proper.1, given, was]
    dsimp only
    rw [Option.bind_some, mergeValue_mappings plain]
    exact ih (proper.2.lookup given) (fun inside => by rw [below] at inside; cases inside) along
      deeper

/-! ## Loads -/

/-- Names without dots, put together with dots, are the path that they were. -/
theorem path_intercalate (plain : ∀ name ∈ names, '.' ∉ name.toList) (some_ : names ≠ []) :
    path (".".intercalate names) = names := by
  have dotless : ∀ word ∈ names.map String.toList, '.' ∉ word := by
    intro word among
    obtain ⟨name, mem, rfl⟩ := List.mem_map.mp among
    exact plain name mem
  have dot : ".".toList = ['.'] := rfl
  rw [path, String.toList_intercalate, dot,
    List.splitOn_intercalate '.' dotless (by simpa using some_), List.map_map]
  simp [Function.comp_def]

theorem keymap_merge {keymap : Datum} (proper : (Datum.dict given).Proper)
    (mine : lookup (.text "keymap") given = some keymap) :
    lookup (.text "keymap") (c.merge given).settings = some keymap := by
  rw [merge, lookup_mergeEntries proper.1, mine]
  exact congrArg some (mergeValue_keymap rfl keymap _)

/-- A load that is granted has been found in order, and is merged in. -/
theorem loadDatum_of_true (granted : (c.loadDatum (.dict given)).2.2 = .ok true) :
    validate (.dict given) = .ok [] ∧ (c.loadDatum (.dict given)).1 = c.merge given := by
  cases checked : validate (.dict given) with
  | error e =>
    rw [loadDatum_of_error checked] at granted
    cases granted
  | ok problems =>
    rw [loadDatum_of_ok checked] at granted
    obtain rfl : problems = [] := by simpa using granted
    rw [loadDatum, accept, checked]
    exact ⟨rfl, rfl⟩

/-- What is found in order is merged in. -/
theorem loadDatum_of_fine (fine : validate (.dict given) = .ok []) : c.loadDatum (.dict given) =
    (c.merge given, [⟨.debug, .config, "Configuration loaded from dictionary"⟩], .ok true) := by
  rw [loadDatum, accept, fine]
  rfl

end Config
end ChipEight
