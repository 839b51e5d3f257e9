import ChipEight.Config.Shared
import ChipEight.Proofs.ProperReading
import ChipEight.Proofs.Settings
/-! # Configurations that share nothing

As long as each mapping stands in one place, a configuration is a tree: what is set or merged in
place is set or merged in the tree (`SharedConfig.set_unshared`, `SharedConfig.loads_unshared`),
and nothing comes to be shared.  A copy of a value without marks has no links, wherever it is put,
and what has no links is read without looking at any cell (`Slot.plain_ofDatum`). -/

namespace ChipEight

open Datum

/-! ## Values without links -/

namespace Slot

/-- The entries of a mapping that shares nothing. -/
abbrev ofEntries (entries : List (Datum × Datum)) : List (Datum × Slot) :=
  entries.map (Prod.map id ofDatum)

theorem plainEntries_eq_map (linked : Nat → Datum) (entries : List (Datum × Slot)) :
    plainEntries linked entries = entries.map (Prod.map id (plain linked)) := by
  induction entries with
  | nil => rfl
  | cons entry rest ih => exact congrArg (_ :: ·) ih

mutual

theorem copy_ofDatum (base : Nat) : (d : Datum) → copy base (.ofDatum d) = ofDatum d
  | .null | .bool _ | .number _ | .text _ => rfl
  | .list items => congrArg Slot.list
      ((copyItems_ofItems base items).trans (copyItems_ofItems 0 items).symm)
  | .dict entries => congrArg Slot.dict
      ((copyEntries_ofEntries base entries).trans (copyEntries_ofEntries 0 entries).symm)

theorem copyItems_ofItems (base : Nat) : (items : List Datum) →
    copyItems base (Marked.ofItems items) = items.map ofDatum
  | [] => rfl
  | item :: rest => congrArg₂ List.cons (copy_ofDatum base item) (copyItems_ofItems base rest)

theorem copyEntries_ofEntries (base : Nat) : (entries : List (Datum × Datum)) →
    copyEntries base (Marked.ofEntries entries) = ofEntries entries
  | [] => rfl
  | (key, value) :: rest => congrArg₂ List.cons (congrArg (key, ·) (copy_ofDatum base value))
      (copyEntries_ofEntries base rest)

end

theorem ofDatum_list (items : List Datum) : ofDatum (.list items) = .list (items.map ofDatum) :=
  congrArg Slot.list (copyItems_ofItems 0 items)

theorem ofDatum_dict (entries : List (Datum × Datum)) :
    ofDatum (.dict entries) = .dict (ofEntries entries) :=
  congrArg Slot.dict (copyEntries_ofEntries 0 entries)

mutual

/-- What shares nothing is read as it is. -/
theorem plain_ofDatum (linked : Nat → Datum) : (d : Datum) → (ofDatum d).plain linked = d
  | .null | .bool _ | .number _ | .text _ => rfl
  | .list items => by rw [ofDatum_list, plain, plainItems_ofItems linked items]
  | .dict entries => by rw [ofDatum_dict, plain, plainEntries_ofEntries linked entries]

theorem plainItems_ofItems (linked : Nat → Datum) : (items : List Datum) →
    plainItems linked (items.map ofDatum) = items
  | [] => rfl
  | item :: rest =>
    congrArg₂ List.cons (plain_ofDatum linked item) (plainItems_ofItems linked rest)

theorem plainEntries_ofEntries (linked : Nat → Datum) : (entries : List (Datum × Datum)) →
    plainEntries linked (ofEntries entries) = entries
  | [] => rfl
  | (key, value) :: rest => congrArg₂ List.cons
      (congrArg (key, ·) (plain_ofDatum linked value)) (plainEntries_ofEntries linked rest)

end

end Slot

/-! ## Changes in place -/

namespace SharedConfig

open Slot

variable {c : Config} {cells : Cells}

@[simp] theorem plain_unshared (c : Config) : (c : SharedConfig).plain = c :=
  congrArg Config.mk (plainEntries_ofEntries _ c.settings)

theorem taken_unshared (d : Datum) (cells : Cells) :
    taken [] (.ofDatum d) cells = (ofDatum d, cells) := by
  rw [taken, copy_ofDatum, List.map_nil, List.append_nil]

mutual

/-- A merge in place into what shares nothing is a merge. -/
theorem mergeValue_unshared (top : Bool) (key : Datum) (cells : Cells) :
    (user : Datum) → (old : Option Datum) →
      mergeValue [] top key (.ofDatum user) (old.map ofDatum) cells =
        (ofDatum (Config.mergeValue top key user old), cells)
  | .null, _ | .bool _, _ | .number _, _ | .text _, _ => taken_unshared _ cells
  | .list items, _ => taken_unshared (.list items) cells
  | .dict user, old => by
    have replaced := taken_unshared (.dict user) cells
    rw [Marked.ofDatum] at replaced ⊢
    rw [mergeValue.eq_def]
    dsimp only
    split
    · rename_i keymap
      rw [replaced, Config.mergeValue_keymap keymap]
    · rename_i plain
      cases old with
      | none => exact replaced
      | some d =>
        cases d with
        | dict old =>
          rw [Option.map_some, ofDatum_dict]
          dsimp only
          rw [mergeEntries_unshared _ cells user old, Config.mergeValue, if_neg plain, ofDatum_dict]
        | _ => exact replaced

theorem mergeEntries_unshared (top : Bool) (cells : Cells) : (user old : List (Datum × Datum)) →
    mergeEntries [] top (Marked.ofEntries user) (Slot.ofEntries old) cells =
      (Slot.ofEntries (Config.mergeEntries top user old), cells)
  | [], _ => rfl
  | (key, value) :: rest, old => by
    rw [Marked.ofEntries.eq_def]
    dsimp only
    rw [mergeEntries, lookup_map, mergeValue_unshared top key cells value]
    dsimp only
    rw [insert_map, mergeEntries_unshared top cells rest, Config.mergeEntries]

end

/-- A merge in place looks into each mapping, at the cells that it has come to. -/
theorem lookup_mergeEntries {user : List (Datum × Datum)} (distinct : Distinct user)
    (name : String) (top : Bool) (old : List (Datum × Slot)) (cells : Cells) :
    ∃ cells', lookup (.text name) (mergeEntries [] top (Marked.ofEntries user) old cells).1 =
      match lookup (.text name) user with
      | none => lookup (.text name) old
      | some value => some
        (mergeValue [] top (.text name) (.ofDatum value) (lookup (.text name) old) cells').1 := by
  induction user generalizing old cells with
  | nil => exact ⟨cells, rfl⟩
  | cons entry rest ih =>
    obtain ⟨key, value⟩ := entry
    obtain ⟨once, distinct⟩ := List.pairwise_cons.mp distinct
    obtain ⟨cells', found⟩ := ih distinct
      (insert key (mergeValue [] top key (.ofDatum value) (lookup key old) cells).1 old)
      (mergeValue [] top key (.ofDatum value) (lookup key old) cells).2
    rw [Marked.ofEntries.eq_def]
    dsimp only
    rw [mergeEntries, found, lookup, lookup_insert]
    by_cases named : key.sameKey (.text name) = true
    · obtain rfl := sameKey_text.mp named
      have absent : lookup (.text name) rest = none := lookup_eq_none fun entry mem same => by
        have other := once entry mem
        rw [same, text_sameKey.mpr rfl] at other
        cases other
      rw [absent, if_pos named, if_pos named]
      exact ⟨cells, rfl⟩
    · rw [if_neg named, if_neg named]
      exact ⟨cells', rfl⟩

/-- **A keymap is replaced as a whole**, whatever is shared. -/
theorem keymap_merge (c : SharedConfig) {user : List (Datum × Datum)} {keymap : Datum}
    (distinct : Distinct user) (given : lookup (.text "keymap") user = some keymap) :
    lookup (.text "keymap") (c.merge (.ofDatum (.dict user))).plain.settings = some keymap := by
  obtain ⟨cells, found⟩ := lookup_mergeEntries distinct "keymap" true c.settings c.cells
  have whole : (mergeValue [] true (.text "keymap") (.ofDatum keymap)
      (lookup (.text "keymap") c.settings) cells).1 = ofDatum keymap := by
    cases keymap with
    | dict entries =>
      have named : Config.namesKeymap true (.text "keymap") = true := rfl
      rw [Marked.ofDatum, mergeValue, if_pos named]
      exact congrArg Prod.fst (taken_unshared (.dict entries) cells)
    | list items => exact congrArg Prod.fst (taken_unshared (.list items) cells)
    | null | bool _ | number _ | text _ => rfl
  rw [given] at found
  dsimp only at found
  rw [whole] at found
  rw [plain, plainEntries_eq_map, lookup_map]
  exact (congrArg (Option.map _) found).trans (congrArg some (plain_ofDatum _ keymap))

theorem merge_unshared (c : Config) (user : List (Datum × Datum)) :
    (c : SharedConfig).merge (.ofDatum (.dict user)) = c.merge user := by
  rw [merge, Document.ofDatum, Marked.ofDatum]
  dsimp only [Config.unshared]
  rw [mergeEntries_unshared]
  rfl

/-- **A load in place**, of settings into what shares nothing, is a load. -/
theorem loadDatum_unshared (c : Config) (user : Datum) :
    (c : SharedConfig).loadDatum user = (↑(c.loadDatum user).1, (c.loadDatum user).2) := by
  rw [loadDatum, loadDocument, Document.plain_ofDatum, plain_unshared, Config.loadDatum,
    Config.accept]
  cases validated : Config.validate user with
  | error e => rfl
  | ok problems =>
    cases problems with
    | nil =>
      cases user with
      | dict given => exact congrArg (·, _) (merge_unshared c given)
      | _ => rfl
    | cons problem rest => rfl

/-- **Loads in place** are loads: whatever has been taken over, each mapping stands in one place. -/
theorem loads_unshared (c : Config) (users : List Datum) :
    users.foldl (fun c user => (c.loadDatum user).1) (c : SharedConfig) = c.loads users := by
  induction users generalizing c with
  | nil => rfl
  | cons user rest ih =>
    rw [List.foldl_cons, loadDatum_unshared]
    exact ih (c.loadDatum user).1

theorem setAt_unshared (value : Datum) (names : List String) (entries : List (Datum × Datum))
    (cells : Cells) : setAt (.ofDatum value) names (Slot.ofEntries entries) cells =
      (Slot.ofEntries (Config.setAt value names entries), cells) := by
  induction names generalizing entries with
  | nil => rfl
  | cons name rest ih =>
    cases rest with
    | nil => rw [setAt, insert_map, Config.setAt]
    | cons next rest =>
      have put (inner : List (Datum × Datum)) :
          let done := setAt (.ofDatum value) (next :: rest) (Slot.ofEntries inner) cells
          (insert (.text name) (Slot.dict done.1) (Slot.ofEntries entries), done.2) =
            (Slot.ofEntries (insert (.text name) (.dict (Config.setAt value (next :: rest) inner))
              entries), cells) := by
        dsimp only
        rw [ih inner, ← ofDatum_dict, insert_map]
      rw [setAt, lookup_map, Config.setAt]
      cases lookup (.text name) entries with
      | none => exact put []
      | some d =>
        cases d with
        | dict inner =>
          rw [Option.map_some, ofDatum_dict]
          exact put inner
        | _ => exact put []

/-- **A write in place** into what shares nothing is a write. -/
theorem set_unshared (c : Config) (key : String) (value : Datum) :
    (c : SharedConfig).set key value = c.set key value := by
  rw [set, Config.unshared]
  dsimp only
  rw [setAt_unshared]
  rfl

end SharedConfig
end ChipEight
