import ChipEight.Config.Basic
/-! # Mappings and how they are merged

What is found in a mapping under a name, after a value was put in (`Datum.lookup_insert`) and after
another mapping was merged in (`Config.lookup_mergeEntries`).  Merging goes by one entry after the
other, so this takes a mapping in which no key stands twice, as it is with every mapping that a
program can hold (`Datum.Proper`). -/

namespace ChipEight

namespace Datum

variable {key value d : Datum} {name : String} {entries : List (Datum × Datum)}

theorem same_text : d.same (.text name) = true ↔ d = .text name := by
  cases d <;> simp [same]

theorem sameKey_text : d.sameKey (.text name) = true ↔ d = .text name := by
  simp [sameKey, isNaN, same_text]

theorem text_sameKey : (text name).sameKey d = true ↔ d = .text name := by
  cases d with
  | text s =>
    simp only [sameKey, same, isNaN, Bool.false_and, Bool.or_false, beq_iff_eq, text.injEq]
    exact eq_comm
  | _ => simp [sameKey, isNaN, same]

/-- No key stands twice in the entries. -/
def Distinct (entries : List (Datum × Datum)) : Prop :=
  entries.Pairwise fun first second => first.1.sameKey second.1 = false

mutual

/-- No key stands twice in a mapping, nor in any mapping inside of it. -/
def Proper : Datum → Prop
  | list items => ProperItems items
  | dict entries => Distinct entries ∧ ProperEntries entries
  | _ => True

def ProperItems : List Datum → Prop
  | [] => True
  | item :: rest => item.Proper ∧ ProperItems rest

def ProperEntries : List (Datum × Datum) → Prop
  | [] => True
  | (_, value) :: rest => value.Proper ∧ ProperEntries rest

end

instance (entries : List (Datum × Datum)) : Decidable (Distinct entries) :=
  inferInstanceAs (Decidable (entries.Pairwise fun first second => first.1.sameKey second.1 = false))

mutual

def decideProper : (d : Datum) → Decidable d.Proper
  | list items => decideItems items
  | dict entries =>
    have := decideEntries entries
    inferInstanceAs (Decidable (Distinct entries ∧ ProperEntries entries))
  | null | bool _ | number _ | text _ => .isTrue trivial

def decideItems : (items : List Datum) → Decidable (ProperItems items)
  | [] => .isTrue trivial
  | item :: rest =>
    have := decideProper item
    have := decideItems rest
    inferInstanceAs (Decidable (item.Proper ∧ ProperItems rest))

def decideEntries : (entries : List (Datum × Datum)) → Decidable (ProperEntries entries)
  | [] => .isTrue trivial
  | (_, value) :: rest =>
    have := decideProper value
    have := decideEntries rest
    inferInstanceAs (Decidable (value.Proper ∧ ProperEntries rest))

end

instance (d : Datum) : Decidable d.Proper := decideProper d

theorem ProperEntries.lookup (proper : ProperEntries entries)
    (found : Datum.lookup key entries = some value) : value.Proper := by
  induction entries with
  | nil => cases found
  | cons entry rest ih =>
    obtain ⟨k, v⟩ := entry
    rw [ProperEntries] at proper
    rw [Datum.lookup] at found
    split at found
    · cases found
      exact proper.1
    · exact ih proper.2 found

/-- Where no key is the name, nothing is found under it. -/
theorem lookup_eq_none {α : Type} {entries : List (Datum × α)}
    (absent : ∀ entry ∈ entries, entry.1 ≠ .text name) :
    lookup (.text name) entries = none := by
  induction entries with
  | nil => rfl
  | cons entry rest ih =>
    obtain ⟨k, v⟩ := entry
    rw [List.forall_mem_cons] at absent
    rw [lookup, if_neg fun same => absent.1 (sameKey_text.mp same), ih absent.2]

/-- **An insertion changes what is found under its key**, and nothing else. -/
theorem lookup_insert {α : Type} (name : String) (key : Datum) (value : α)
    (entries : List (Datum × α)) :
    lookup (.text name) (insert key value entries) =
      if key.sameKey (.text name) then some value else lookup (.text name) entries := by
  induction entries with
  | nil => rfl
  | cons entry rest ih =>
    obtain ⟨k, v⟩ := entry
    rw [insert, lookup]
    by_cases named : key.sameKey (.text name) = true
    · obtain rfl := sameKey_text.mp named
      rw [if_pos named]
      split
      · rename_i there
        rw [lookup, if_pos there]
      · rename_i other
        rw [lookup, if_neg other, ih, if_pos named]
    · rw [if_neg named] at ih ⊢
      split
      · rename_i there
        have other : ¬ k.sameKey (.text name) = true := fun same => by
          obtain rfl := sameKey_text.mp same
          exact named (sameKey_text.mpr (text_sameKey.mp there))
        rw [lookup, if_neg other, if_neg other]
      · rw [lookup, ih]

/-! ### Values that are changed one by one -/

theorem lookup_map {α β : Type} (f : α → β) (key : Datum) (entries : List (Datum × α)) :
    lookup key (entries.map (Prod.map id f)) = (lookup key entries).map f := by
  induction entries with
  | nil => rfl
  | cons entry rest ih =>
    rw [List.map_cons, lookup.eq_def, lookup.eq_def]
    dsimp only [Prod.map, id]
    rw [ih]
    split <;> rfl

theorem insert_map {α β : Type} (f : α → β) (key : Datum) (value : α)
    (entries : List (Datum × α)) : insert key (f value) (entries.map (Prod.map id f)) =
      (insert key value entries).map (Prod.map id f) := by
  induction entries with
  | nil => rfl
  | cons entry rest ih =>
    rw [List.map_cons, insert.eq_def, insert.eq_def]
    dsimp only [Prod.map, id]
    rw [ih]
    split <;> rfl

theorem ofEntries_map {α β : Type} (f : α → β) (entries : List (Datum × α)) :
    ofEntries (entries.map (Prod.map id f)) = (ofEntries entries).map (Prod.map id f) := by
  have gathered (before : List (Datum × α)) :
      (entries.map (Prod.map id f)).foldl (fun es entry => insert entry.1 entry.2 es)
          (before.map (Prod.map id f)) =
        (entries.foldl (fun es entry => insert entry.1 entry.2 es) before).map (Prod.map id f) := by
    induction entries generalizing before with
    | nil => rfl
    | cons entry rest ih =>
      rw [List.map_cons, List.foldl_cons, List.foldl_cons, ← ih, ← insert_map]
      rfl
  exact gathered []

end Datum

namespace Config

open Datum

/-- **A merge** looks into each mapping: what only one of them has is found as it was, and what both
have is merged. -/
theorem lookup_mergeEntries {user : List (Datum × Datum)} (distinct : Distinct user)
    (name : String) (top : Bool) (old : List (Datum × Datum)) :
    lookup (.text name) (mergeEntries top user old) =
      match lookup (.text name) user with
      | none => lookup (.text name) old
      | some value => some (mergeValue top (.text name) value (lookup (.text name) old)) := by
  induction user generalizing old with
  | nil => rw [mergeEntries, lookup]
  | cons entry rest ih =>
    obtain ⟨key, value⟩ := entry
    obtain ⟨once, distinct⟩ := List.pairwise_cons.mp distinct
    rw [mergeEntries, ih distinct, lookup, lookup_insert]
    by_cases named : key.sameKey (.text name) = true
    · obtain rfl := sameKey_text.mp named
      have absent : lookup (.text name) rest = none := lookup_eq_none fun entry mem same => by
        have other := once entry mem
        rw [same, text_sameKey.mpr rfl] at other
        cases other
      rw [absent, if_pos named, if_pos named]
    · rw [if_neg named, if_neg named]

/-- Where two mappings meet they are merged, unless it is the keymap; else the user's value
counts. -/
theorem mergeValue_cases (top : Bool) (key value : Datum) (old : Option Datum) :
    mergeValue top key value old = value ∨
    ∃ user theirs, value = .dict user ∧ old = some (.dict theirs) ∧ namesKeymap top key = false ∧
      mergeValue top key value old = .dict (mergeEntries (top && !key.truthy) user theirs) := by
  match value, old with
  | .dict user, some (.dict theirs) =>
    rw [mergeValue]
    cases keymap : namesKeymap top key with
    | true => exact .inl (if_pos rfl)
    | false => exact .inr ⟨user, theirs, rfl, rfl, rfl, if_neg (by simp)⟩
  | .dict _, none | .dict _, some .null | .dict _, some (.bool _) | .dict _, some (.number _)
  | .dict _, some (.text _) | .dict _, some (.list _) => exact .inl (by rw [mergeValue]; simp)
  | .null, _ | .bool _, _ | .number _, _ | .text _, _ | .list _, _ =>
    exact .inl (by rw [mergeValue]; simp)

/-- A keymap is replaced as a whole. -/
theorem mergeValue_keymap {top : Bool} {key : Datum} (keymap : namesKeymap top key = true)
    (value : Datum) (old : Option Datum) : mergeValue top key value old = value := by
  rcases mergeValue_cases top key value old with same | ⟨_, _, -, -, other, -⟩
  · exact same
  · rw [keymap] at other
    cases other

end Config
end ChipEight
