import ChipEight.Proofs.Sharing
import Mathlib.Data.Finset.Card
import Mathlib.Data.Finset.Lattice.Lemmas
/-! # What slots mean

A slot means one value, by the cells that it links to (`Means.unique`).  No cell is linked to from
below itself, since what it means would be a part of itself; so as many steps as there are cells are
enough to read a value (`MeansEntries.plain`), and a cell can be given other entries that mean the
same (`Means.set`).  What has been copied means what it was copied from (`means_copy`). -/

namespace ChipEight

open Datum

mutual

/-- A slot means a value, by the cells that it links to. -/
inductive Means (cells : Cells) : Slot → Datum → Prop where
  | atom {d : Datum} (single : d.isKey = true) : Means cells (.atom d single) d
  | list {items : List Slot} {values : List Datum} (each : MeansItems cells items values) :
      Means cells (.list items) (.list values)
  | dict {entries : List (Datum × Slot)} {tree : List (Datum × Datum)}
      (each : MeansEntries cells entries tree) : Means cells (.dict entries) (.dict tree)
  | link {n : Nat} {entries : List (Datum × Slot)} {tree : List (Datum × Datum)}
      (there : cells[n]? = some entries) (each : MeansEntries cells entries tree) :
      Means cells (.link n) (.dict tree)

inductive MeansItems (cells : Cells) : List Slot → List Datum → Prop where
  | nil : MeansItems cells [] []
  | cons {slot : Slot} {d : Datum} {items : List Slot} {values : List Datum}
      (first : Means cells slot d) (rest : MeansItems cells items values) :
      MeansItems cells (slot :: items) (d :: values)

inductive MeansEntries (cells : Cells) :
    List (Datum × Slot) → List (Datum × Datum) → Prop where
  | nil : MeansEntries cells [] []
  | cons {key d : Datum} {slot : Slot} {entries : List (Datum × Slot)}
      {tree : List (Datum × Datum)} (first : Means cells slot d)
      (rest : MeansEntries cells entries tree) :
      MeansEntries cells ((key, slot) :: entries) ((key, d) :: tree)

end

variable {cells other : Cells} {slot : Slot} {d d' : Datum} {items : List Slot}
  {values values' : List Datum} {entries : List (Datum × Slot)} {tree tree' : List (Datum × Datum)}
  {n : Nat}

mutual

theorem Means.unique {slot : Slot} {d d' : Datum} :
    Means cells slot d → Means cells slot d' → d = d'
  | .atom _, .atom _ => rfl
  | .list each, .list each' => congrArg Datum.list (each.unique each')
  | .dict each, .dict each' => congrArg Datum.dict (each.unique each')
  | .link there each, .link there' each' => by
    cases there.symm.trans there'
    exact congrArg Datum.dict (each.unique each')

theorem MeansItems.unique {items : List Slot} {values values' : List Datum} :
    MeansItems cells items values → MeansItems cells items values' → values = values'
  | .nil, .nil => rfl
  | .cons first rest, .cons first' rest' =>
    congrArg₂ List.cons (first.unique first') (rest.unique rest')

theorem MeansEntries.unique {entries : List (Datum × Slot)} {tree tree' : List (Datum × Datum)} :
    MeansEntries cells entries tree → MeansEntries cells entries tree' → tree = tree'
  | .nil, .nil => rfl
  | .cons first rest, .cons first' rest' =>
    congrArg₂ List.cons (congrArg (_, ·) (first.unique first')) (rest.unique rest')

end

/-! ## Other cells -/

/-- Whatever is meant by some cells is meant by others. -/
def Cells.Keeps (cells other : Cells) : Prop :=
  ∀ slot d, Means cells slot d → Means other slot d

theorem Cells.Keeps.refl (cells : Cells) : cells.Keeps cells := fun _ _ means => means

theorem Cells.Keeps.trans {last : Cells} (first : cells.Keeps other) (second : other.Keeps last) :
    cells.Keeps last := fun slot d means => second slot d (first slot d means)

theorem Cells.Keeps.each (keeps : cells.Keeps other) {entries : List (Datum × Slot)}
    {tree : List (Datum × Datum)} : MeansEntries cells entries tree →
      MeansEntries other entries tree
  | .nil => .nil
  | .cons first rest => .cons (keeps _ _ first) (keeps.each rest)

/-- Whatever is in some cells is in others. -/
def Cells.Extends (cells other : Cells) : Prop :=
  ∀ (n : Nat) (entries : List (Datum × Slot)), cells[n]? = some entries → other[n]? = some entries

mutual

theorem Means.mono (more : cells.Extends other) {slot : Slot} {d : Datum} :
    Means cells slot d → Means other slot d
  | .atom single => .atom single
  | .list each => .list (each.mono more)
  | .dict each => .dict (each.mono more)
  | .link there each => .link (more _ _ there) (each.mono more)

theorem MeansItems.mono (more : cells.Extends other) {items : List Slot}
    {values : List Datum} : MeansItems cells items values → MeansItems other items values
  | .nil => .nil
  | .cons first rest => .cons (first.mono more) (rest.mono more)

theorem MeansEntries.mono (more : cells.Extends other) {entries : List (Datum × Slot)}
    {tree : List (Datum × Datum)} : MeansEntries cells entries tree →
      MeansEntries other entries tree
  | .nil => .nil
  | .cons first rest => .cons (first.mono more) (rest.mono more)

end

theorem Cells.extends_append (cells more : Cells) : cells.Extends (cells ++ more) :=
  fun _ _ there =>
    (List.getElem?_append_left (List.getElem?_eq_some_iff.mp there).1).trans there

theorem Cells.Extends.keeps (more : cells.Extends other) : cells.Keeps other :=
  fun _ _ means => means.mono more

mutual

/-- **A cell can be given other entries that mean the same.**  The induction is on the value: below
the cell itself there is less of it. -/
theorem Means.set (there : Means cells (.link n) (.dict tree))
    (same : MeansEntries cells entries tree) : (d : Datum) → (slot : Slot) →
    Means cells slot d → Means (cells.set n entries) slot d
  | .dict inner, slot, means => by
    cases means with
    | atom single => cases single
    | dict each => exact .dict (MeansEntries.set there same inner _ each)
    | @link m _ _ there' each =>
      by_cases here : n = m
      · subst here
        have less := there.unique (.link there' each)
        rw [Datum.dict.injEq] at less
        have inside := (List.getElem?_eq_some_iff.mp there').1
        exact .link (List.getElem?_set_self inside)
          (MeansEntries.set there same inner entries (less ▸ same))
      · exact .link ((List.getElem?_set_ne here).trans there')
          (MeansEntries.set there same inner _ each)
  | .list values, slot, means => by
    cases means with
    | atom single => cases single
    | list each => exact .list (MeansItems.set there same values _ each)
  | .null, _, .atom single | .bool _, _, .atom single | .number _, _, .atom single
  | .text _, _, .atom single => .atom single

theorem MeansItems.set (there : Means cells (.link n) (.dict tree))
    (same : MeansEntries cells entries tree) : (values : List Datum) → (items : List Slot) →
    MeansItems cells items values → MeansItems (cells.set n entries) items values
  | [], _, .nil => .nil
  | d :: values, _, .cons first rest =>
    .cons (Means.set there same d _ first) (MeansItems.set there same values _ rest)

theorem MeansEntries.set (there : Means cells (.link n) (.dict tree))
    (same : MeansEntries cells entries tree) : (inner : List (Datum × Datum)) →
    (slots : List (Datum × Slot)) → MeansEntries cells slots inner →
    MeansEntries (cells.set n entries) slots inner
  | [], _, .nil => .nil
  | (_, d) :: inner, _, .cons first rest =>
    .cons (Means.set there same d _ first) (MeansEntries.set there same inner _ rest)

end

/-! ## Reading -/

section Plain

open Classical

/-- The cells that mean no more than so much. -/
noncomputable def Cells.small (cells : Cells) (size : Nat) : Finset Nat :=
  (Finset.range cells.length).filter fun n =>
    ∃ tree, Means cells (.link n) (.dict tree) ∧ sizeOf tree < size

theorem Cells.small_mono (cells : Cells) {size size' : Nat} (le : size ≤ size') :
    cells.small size ⊆ cells.small size' := by
  intro n mem
  rw [small, Finset.mem_filter] at mem ⊢
  obtain ⟨inside, tree, means, lt⟩ := mem
  exact ⟨inside, tree, means, by omega⟩

theorem Cells.deep_mono {size size' depth : Nat} (le : size ≤ size')
    (deep : (cells.small size').card ≤ depth) : (cells.small size).card ≤ depth :=
  (Finset.card_le_card (cells.small_mono le)).trans deep

/-- Below a cell one cell less is small. -/
theorem Cells.small_lt (means : Means cells (.link n) (.dict tree)) :
    (cells.small (sizeOf tree)).card < (cells.small (sizeOf (Datum.dict tree))).card := by
  have more : sizeOf tree < sizeOf (Datum.dict tree) := by simp
  refine Finset.card_lt_card ⟨cells.small_mono more.le, fun less => ?_⟩
  have inside : n < cells.length := by
    cases means with
    | link there each => exact (List.getElem?_eq_some_iff.mp there).1
  have here : n ∈ cells.small (sizeOf (Datum.dict tree)) :=
    Finset.mem_filter.mpr ⟨Finset.mem_range.mpr inside, tree, means, more⟩
  obtain ⟨-, tree', means', lt⟩ := Finset.mem_filter.mp (less here)
  cases means.unique means'
  exact absurd lt (Nat.lt_irrefl _)

mutual

theorem Means.plain_of_small : (d : Datum) → (slot : Slot) → (depth : Nat) →
    Means cells slot d → (cells.small (sizeOf d)).card ≤ depth →
    slot.plain (cells.read depth) = d
  | .dict tree, slot, depth, means, deep => by
    cases means with
    | atom single => cases single
    | dict each =>
      exact congrArg Datum.dict
        (MeansEntries.plain_of_small tree _ depth each (Cells.deep_mono (by simp) deep))
    | link there each =>
      have fewer := Cells.small_lt (.link there each)
      obtain ⟨depth, rfl⟩ := Nat.exists_eq_succ_of_ne_zero (Nat.ne_zero_of_lt (fewer.trans_le deep))
      rw [Slot.plain, Cells.read, List.getD, there]
      exact congrArg Datum.dict (MeansEntries.plain_of_small tree _ depth each (by omega))
  | .list values, slot, depth, means, deep => by
    cases means with
    | atom single => cases single
    | list each =>
      exact congrArg Datum.list
        (MeansItems.plain_of_small values _ depth each (Cells.deep_mono (by simp) deep))
  | .null, _, _, .atom _, _ | .bool _, _, _, .atom _, _ | .number _, _, _, .atom _, _
  | .text _, _, _, .atom _, _ => rfl

theorem MeansItems.plain_of_small : (values : List Datum) → (items : List Slot) →
    (depth : Nat) → MeansItems cells items values → (cells.small (sizeOf values)).card ≤ depth →
    Slot.plainItems (cells.read depth) items = values
  | [], _, _, .nil, _ => rfl
  | d :: values, _, depth, .cons first rest, deep => by
    rw [List.cons.sizeOf_spec] at deep
    exact congrArg₂ List.cons
      (Means.plain_of_small d _ depth first (Cells.deep_mono (by omega) deep))
      (MeansItems.plain_of_small values _ depth rest (Cells.deep_mono (by omega) deep))

theorem MeansEntries.plain_of_small : (tree : List (Datum × Datum)) →
    (entries : List (Datum × Slot)) → (depth : Nat) → MeansEntries cells entries tree →
    (cells.small (sizeOf tree)).card ≤ depth → Slot.plainEntries (cells.read depth) entries = tree
  | [], _, _, .nil, _ => rfl
  | (key, d) :: tree, _, depth, .cons first rest, deep => by
    rw [List.cons.sizeOf_spec, Prod.mk.sizeOf_spec] at deep
    exact congrArg₂ List.cons
      (congrArg (key, ·) (Means.plain_of_small d _ depth first (Cells.deep_mono (by omega) deep)))
      (MeansEntries.plain_of_small tree _ depth rest (Cells.deep_mono (by omega) deep))

end

/-- **What is meant is read**, in as many steps as there are cells. -/
theorem MeansEntries.plain (each : MeansEntries cells entries tree) :
    Slot.plainEntries (cells.read cells.length) entries = tree :=
  each.plain_of_small tree entries cells.length
    ((Finset.card_le_card (Finset.filter_subset _ _)).trans_eq (Finset.card_range _))

end Plain

/-! ## Copies -/

mutual

/-- Each mapping with a mark is the one that has this mark. -/
def Marked.Sound (marked : List (List (Datum × Marked))) : Marked → Prop
  | .atom _ _ => True
  | .list items => SoundItems marked items
  | .dict mark entries => (∀ m ∈ mark, marked[m]? = some entries) ∧ SoundEntries marked entries

def Marked.SoundItems (marked : List (List (Datum × Marked))) : List Marked → Prop
  | [] => True
  | item :: rest => item.Sound marked ∧ SoundItems marked rest

def Marked.SoundEntries (marked : List (List (Datum × Marked))) : List (Datum × Marked) → Prop
  | [] => True
  | (_, value) :: rest => value.Sound marked ∧ SoundEntries marked rest

end

def Document.Sound (d : Document) : Prop := d.value.Sound d.marked

variable {marked : List (List (Datum × Marked))}

namespace Marked

mutual

/-- What has no marks is sound. -/
theorem sound_ofDatum : (d : Datum) → (ofDatum d).Sound marked
  | .null | .bool _ | .number _ | .text _ => trivial
  | .list items => soundItems_ofItems items
  | .dict entries => ⟨by simp, soundEntries_ofEntries entries⟩

theorem soundItems_ofItems : (items : List Datum) → SoundItems marked (ofItems items)
  | [] => trivial
  | item :: rest => ⟨sound_ofDatum item, soundItems_ofItems rest⟩

theorem soundEntries_ofEntries :
    (entries : List (Datum × Datum)) → SoundEntries marked (ofEntries entries)
  | [] => trivial
  | (_, value) :: rest => ⟨sound_ofDatum value, soundEntries_ofEntries rest⟩

end

end Marked

/-- Copies of the marked mappings are in the cells from some cell on. -/
def Cells.Holds (cells : Cells) (marked : List (List (Datum × Marked))) (base : Nat) : Prop :=
  ∀ (m : Nat) (entries : List (Datum × Marked)), marked[m]? = some entries →
    cells[base + m]? = some (Slot.copyEntries base entries)

mutual

/-- **A copy means what it was copied from.** -/
theorem means_copy {base : Nat} (holds : cells.Holds marked base) : (v : Marked) →
    v.Sound marked → Means cells (.copy base v) v.plain
  | .atom _ single, _ => .atom single
  | .list items, sound => .list (means_copyItems holds items sound)
  | .dict none entries, sound => .dict (means_copyEntries holds entries sound.2)
  | .dict (some m) entries, sound =>
    .link (holds m entries (sound.1 m rfl)) (means_copyEntries holds entries sound.2)

theorem means_copyItems {base : Nat} (holds : cells.Holds marked base) :
    (items : List Marked) → Marked.SoundItems marked items →
    MeansItems cells (Slot.copyItems base items) (Marked.plainItems items)
  | [], _ => .nil
  | item :: rest, sound =>
    .cons (means_copy holds item sound.1) (means_copyItems holds rest sound.2)

theorem means_copyEntries {base : Nat} (holds : cells.Holds marked base) :
    (entries : List (Datum × Marked)) → Marked.SoundEntries marked entries →
    MeansEntries cells (Slot.copyEntries base entries) (Marked.plainEntries entries)
  | [], _ => .nil
  | (_, value) :: rest, sound =>
    .cons (means_copy holds value sound.1) (means_copyEntries holds rest sound.2)

end

theorem means_ofDatum (cells : Cells) (d : Datum) : Means cells (.ofDatum d) d := by
  have nothing : cells.Holds [] 0 := by simp [Cells.Holds]
  have copied := means_copy nothing (.ofDatum d) (Marked.sound_ofDatum d)
  rwa [Marked.plain_ofDatum] at copied

theorem SharedConfig.holds_taken (cells : Cells) (v : Marked) :
    (taken marked v cells).2.Holds marked cells.length := by
  intro m entries there
  rw [taken, List.getElem?_append_right (Nat.le_add_right _ _), Nat.add_sub_cancel_left,
    List.getElem?_map, there, Option.map_some]

end ChipEight
