import ChipEight.Proofs.DeepMerge
import ChipEight.Proofs.Meaning
/-! # Mappings in places of their own

A configuration may have cells and share nothing all the same: each cell is linked to from one place
(`Mapped`).  What is merged into such a place is in no other (`Underway.focus`), so that a merge in
place is a merge of the trees (`SharedConfig.SharesNothing.merge`).  What is taken over may share
mappings within itself, as it is not merged into again: no key stands twice (`Underway`). -/

namespace ChipEight

open Datum

variable {cells other : Cells} {slot : Slot} {d : Datum} {used used' others : Finset Nat}
  {entries : List (Datum × Slot)} {tree : List (Datum × Datum)} {n : Nat}

/-! ## Cells that are used -/

/-- The same is in some cells. -/
def Cells.Agree (cells other : Cells) (used : Finset Nat) : Prop :=
  ∀ n ∈ used, other[n]? = cells[n]?

namespace Cells.Agree

theorem left (agree : cells.Agree other (used ∪ others)) : cells.Agree other used :=
  fun n mem => agree n (Finset.mem_union_left _ mem)

theorem right (agree : cells.Agree other (used ∪ others)) : cells.Agree other others :=
  fun n mem => agree n (Finset.mem_union_right _ mem)

theorem inside (agree : cells.Agree other used) (inside : used ⊆ Finset.range cells.length) :
    used ⊆ Finset.range other.length := by
  intro n mem
  have there := Finset.mem_range.mp (inside mem)
  rw [Finset.mem_range]
  by_contra beyond
  have same := agree n mem
  rw [List.getElem?_eq_none (by omega), List.getElem?_eq_getElem there] at same
  cases same

end Cells.Agree

/-- What a slot means is decided by some of the cells. -/
structure Whole (cells : Cells) (slot : Slot) (d : Datum) (used : Finset Nat) : Prop where
  inside : used ⊆ Finset.range cells.length
  means : ∀ other, cells.Agree other used → Means other slot d

theorem Whole.agree (whole : Whole cells slot d used) (agree : cells.Agree other used) :
    Whole other slot d used :=
  ⟨agree.inside whole.inside, fun more agree' =>
    whole.means more fun n mem => (agree' n mem).trans (agree n mem)⟩

mutual

/-- A slot means a value by cells to each of which one link leads; within lists, which are not
merged into, there may be more. -/
inductive Held (cells : Cells) : Slot → Datum → Finset Nat → Prop where
  | atom {d : Datum} (single : d.isKey = true) : Held cells (.atom d single) d ∅
  | list {items : List Slot} {d : Datum} {used : Finset Nat}
      (whole : Whole cells (.list items) d used) : Held cells (.list items) d used
  | dict {entries : List (Datum × Slot)} {tree : List (Datum × Datum)} {used : Finset Nat}
      (mapped : Mapped cells entries tree used) : Held cells (.dict entries) (.dict tree) used
  | link {n : Nat} {entries : List (Datum × Slot)} {tree : List (Datum × Datum)}
      {used : Finset Nat} (there : cells[n]? = some entries)
      (mapped : Mapped cells entries tree used) (fresh : n ∉ used) :
      Held cells (.link n) (.dict tree) (insert n used)

/-- So do entries. -/
inductive Mapped (cells : Cells) :
    List (Datum × Slot) → List (Datum × Datum) → Finset Nat → Prop where
  | nil : Mapped cells [] [] ∅
  | cons {key d : Datum} {slot : Slot} {rest : List (Datum × Slot)} {tree : List (Datum × Datum)}
      {used others : Finset Nat} (held : Held cells slot d used)
      (rest_ : Mapped cells rest tree others) (apart : Disjoint used others) :
      Mapped cells ((key, slot) :: rest) ((key, d) :: tree) (used ∪ others)

end

mutual

theorem Held.agree {slot : Slot} {d : Datum} {used : Finset Nat} :
    Held cells slot d used → cells.Agree other used → Held other slot d used
  | .atom single, _ => .atom single
  | .list whole, agree => .list (whole.agree agree)
  | .dict mapped, agree => .dict (Mapped.agree mapped agree)
  | .link there mapped fresh, agree =>
    .link ((agree _ (Finset.mem_insert_self _ _)).trans there)
      (Mapped.agree mapped fun n mem => agree n (Finset.mem_insert_of_mem mem)) fresh

theorem Mapped.agree {entries : List (Datum × Slot)} {tree : List (Datum × Datum)}
    {used : Finset Nat} :
    Mapped cells entries tree used → cells.Agree other used → Mapped other entries tree used
  | .nil, _ => .nil
  | .cons held rest_ apart, agree =>
    .cons (Held.agree held agree.left) (Mapped.agree rest_ agree.right) apart

end

mutual

theorem Held.inside {slot : Slot} {d : Datum} {used : Finset Nat} :
    Held cells slot d used → used ⊆ Finset.range cells.length
  | .atom _ => Finset.empty_subset _
  | .list whole => whole.inside
  | .dict mapped => Mapped.inside mapped
  | .link there mapped _ => Finset.insert_subset
      (Finset.mem_range.mpr (List.getElem?_eq_some_iff.mp there).1) (Mapped.inside mapped)

theorem Mapped.inside {entries : List (Datum × Slot)} {tree : List (Datum × Datum)}
    {used : Finset Nat} : Mapped cells entries tree used → used ⊆ Finset.range cells.length
  | .nil => Finset.empty_subset _
  | .cons held rest_ _ => Finset.union_subset (Held.inside held) (Mapped.inside rest_)

end

mutual

theorem Held.means {slot : Slot} {d : Datum} {used : Finset Nat} :
    Held cells slot d used → Means cells slot d
  | .atom single => .atom single
  | .list whole => whole.means cells fun _ _ => rfl
  | .dict mapped => .dict (Mapped.means mapped)
  | .link there mapped _ => .link there (Mapped.means mapped)

theorem Mapped.means {entries : List (Datum × Slot)} {tree : List (Datum × Datum)}
    {used : Finset Nat} : Mapped cells entries tree used → MeansEntries cells entries tree
  | .nil => .nil
  | .cons held rest_ _ => .cons (Held.means held) (Mapped.means rest_)

end

mutual

/-- What has no links needs no cells. -/
theorem held_ofDatum (cells : Cells) : (d : Datum) → Held cells (.ofDatum d) d ∅
  | .null | .bool _ | .number _ | .text _ => .atom rfl
  | .list items => by
    have means (other : Cells) := means_ofDatum other (.list items)
    rw [Slot.ofDatum_list] at means ⊢
    exact .list ⟨Finset.empty_subset _, fun other _ => means other⟩
  | .dict entries => by
    rw [Slot.ofDatum_dict]
    exact .dict (mapped_ofEntries cells entries)

theorem mapped_ofEntries (cells : Cells) : (entries : List (Datum × Datum)) →
    Mapped cells (Slot.ofEntries entries) entries ∅
  | [] => .nil
  | (_, value) :: rest =>
    .cons (held_ofDatum cells value) (mapped_ofEntries cells rest) (Finset.disjoint_empty_left _)

end

/-! ## One place at a time -/

/-- Nothing is changed but some cells, and behind them there may be more. -/
structure Cells.Within (cells other : Cells) (used : Finset Nat) : Prop where
  longer : cells.length ≤ other.length
  elsewhere : ∀ n < cells.length, n ∉ used → other[n]? = cells[n]?

/-- Of the cells that there were, no more are used. -/
def Cells.Grown (cells : Cells) (used used' : Finset Nat) : Prop :=
  ∀ n ∈ used', n ∈ used ∨ cells.length ≤ n

theorem Cells.Within.agree (within : cells.Within other used) (apart : Disjoint used others)
    (inside : others ⊆ Finset.range cells.length) : cells.Agree other others := fun n mem =>
  within.elsewhere n (Finset.mem_range.mp (inside mem)) fun mem' =>
    Finset.disjoint_left.mp apart mem' mem

theorem Cells.Grown.apart (grown : cells.Grown used used') (apart : Disjoint used others)
    (inside : others ⊆ Finset.range cells.length) : Disjoint used' others := by
  rw [Finset.disjoint_left] at apart ⊢
  intro n mem mem'
  rcases grown n mem with mine | new
  · exact apart mine mem'
  · exact absurd (Finset.mem_range.mp (inside mem')) (by omega)

theorem Cells.Grown.union {more more' : Finset Nat} (grown : cells.Grown used used')
    (grown' : cells.Grown more more') : cells.Grown (used ∪ more) (used' ∪ more') := by
  intro n mem
  rcases Finset.mem_union.mp mem with mem | mem
  · exact (grown n mem).imp_left (Finset.mem_union_left _)
  · exact (grown' n mem).imp_left (Finset.mem_union_right _)

theorem Cells.Grown.refl (cells : Cells) (used : Finset Nat) : cells.Grown used used :=
  fun _ => .inl

/-- Entries while others are merged into them: with some of the keys this is done, and what is in
their places is whole. -/
inductive Underway (cells : Cells) (done : Datum → Prop) :
    List (Datum × Slot) → List (Datum × Datum) → Finset Nat → Prop where
  | nil : Underway cells done [] [] ∅
  | ahead {key d : Datum} {slot : Slot} {rest : List (Datum × Slot)}
      {tree : List (Datum × Datum)} {used others : Finset Nat} (held : Held cells slot d used)
      (rest_ : Underway cells done rest tree others) (apart : Disjoint used others) :
      Underway cells done ((key, slot) :: rest) ((key, d) :: tree) (used ∪ others)
  | past {key d : Datum} {slot : Slot} {rest : List (Datum × Slot)}
      {tree : List (Datum × Datum)} {used others : Finset Nat} (is : done key)
      (whole : Whole cells slot d used) (rest_ : Underway cells done rest tree others)
      (apart : Disjoint used others) :
      Underway cells done ((key, slot) :: rest) ((key, d) :: tree) (used ∪ others)

theorem Mapped.underway {done : Datum → Prop} {entries : List (Datum × Slot)}
    {tree : List (Datum × Datum)} {used : Finset Nat} :
    Mapped cells entries tree used → Underway cells done entries tree used
  | .nil => .nil
  | .cons held rest_ apart => .ahead held rest_.underway apart

/-- What there may be in a place. -/
inductive HeldAt (cells : Cells) : Option Slot → Option Datum → Finset Nat → Prop where
  | none : HeldAt cells none none ∅
  | some {slot : Slot} {d : Datum} {used : Finset Nat} (held : Held cells slot d used) :
      HeldAt cells (some slot) (some d) used

namespace Underway

variable {done : Datum → Prop}

theorem inside (entries_ : Underway cells done entries tree used) :
    used ⊆ Finset.range cells.length := by
  induction entries_ with
  | nil => exact Finset.empty_subset _
  | ahead held _ _ ih => exact Finset.union_subset held.inside ih
  | past _ whole _ _ ih => exact Finset.union_subset whole.inside ih

theorem means (entries_ : Underway cells done entries tree used)
    (agree : cells.Agree other used) : MeansEntries other entries tree := by
  induction entries_ with
  | nil => exact .nil
  | ahead held _ _ ih => exact .cons (held.agree agree.left).means (ih agree.right)
  | past _ whole _ _ ih => exact .cons (whole.means other agree.left) (ih agree.right)

theorem agree {done' : Datum → Prop} (entries_ : Underway cells done entries tree used)
    (more : ∀ key, done key → done' key) (agree : cells.Agree other used) :
    Underway other done' entries tree used := by
  induction entries_ with
  | nil => exact .nil
  | ahead held _ apart ih => exact .ahead (held.agree agree.left) (ih agree.right) apart
  | past is whole _ apart ih =>
    exact .past (more _ is) (whole.agree agree.left) (ih agree.right) apart

/-- **A place can be changed by itself**, together with the cells that it needs. -/
theorem focus {key : Datum} (isKey : key.isKey = true)
    (entries_ : Underway cells done entries tree used)
    (ahead : ∀ key', done key' → ¬ key'.sameKey key = true) :
    ∃ own ⊆ used, HeldAt cells (lookup key entries) (lookup key tree) own ∧
      ∀ (other : Cells) (slot : Slot) (d : Datum) (own' : Finset Nat), cells.Grown own own' →
        cells.Within other own → Whole other slot d own' →
        ∃ used', cells.Grown used used' ∧
          Underway other (fun key' => done key' ∨ key'.sameKey key = true)
            (insert key slot entries) (insert key d tree) used' := by
  induction entries_ with
  | nil =>
    refine ⟨∅, Finset.Subset.refl _, .none, fun other slot d own' grown _ whole => ?_⟩
    have mine : key.sameKey key = true := (sameKey_iff isKey).mpr rfl
    exact ⟨own' ∪ ∅, by rwa [Finset.union_empty],
      .past (.inr mine) whole .nil (Finset.disjoint_empty_right _)⟩
  | @ahead k d slot rest tree used others held rest_ apart ih =>
    obtain ⟨own, less, heldAt, put⟩ := ih
    rw [lookup, lookup]
    by_cases same : k.sameKey key = true
    · rw [if_pos same, if_pos same]
      refine ⟨used, Finset.subset_union_left, .some held,
        fun other slot' d' own' grown within whole => ⟨own' ∪ others,
          grown.union (.refl cells others), ?_⟩⟩
      rw [Datum.insert, Datum.insert, if_pos same, if_pos same]
      exact .past (.inr same) whole
        (rest_.agree (fun _ => .inl) (within.agree apart rest_.inside))
        (grown.apart apart rest_.inside)
    · rw [if_neg same, if_neg same]
      refine ⟨own, less.trans Finset.subset_union_right, heldAt,
        fun other slot' d' own' grown within whole => ?_⟩
      obtain ⟨others', grown', entries'⟩ := put other slot' d' own' grown within whole
      rw [Datum.insert, Datum.insert, if_neg same, if_neg same]
      exact ⟨used ∪ others', (Cells.Grown.refl cells used).union grown',
        .ahead (held.agree (within.agree (apart.mono_right less).symm held.inside)) entries'
          (grown'.apart apart.symm held.inside).symm⟩
  | @past k d slot rest tree used others is whole rest_ apart ih =>
    obtain ⟨own, less, heldAt, put⟩ := ih
    rw [lookup, lookup, if_neg (ahead k is), if_neg (ahead k is)]
    refine ⟨own, less.trans Finset.subset_union_right, heldAt,
      fun other slot' d' own' grown within whole' => ?_⟩
    obtain ⟨others', grown', entries'⟩ := put other slot' d' own' grown within whole'
    rw [Datum.insert, Datum.insert, if_neg (ahead k is), if_neg (ahead k is)]
    exact ⟨used ∪ others', (Cells.Grown.refl cells used).union grown',
      .past (.inl is) (whole.agree (within.agree (apart.mono_right less).symm whole.inside))
        entries' (grown'.apart apart.symm whole.inside).symm⟩

end Underway

/-- A link leads to what is put into its cell. -/
theorem relinked {done : Datum → Prop} {new : List (Datum × Slot)}
    (there : cells[n]? = some entries) (fresh : n ∉ used) (grown : cells.Grown used used')
    (within : cells.Within other used) (entries_ : Underway other done new tree used') :
    cells.Grown (insert n used) (insert n used') ∧
      Whole (other.set n new) (.link n) (.dict tree) (insert n used') ∧
      cells.Within (other.set n new) (insert n used) := by
  have here := (List.getElem?_eq_some_iff.mp there).1
  have inside : n < other.length := here.trans_le within.longer
  have fresh' : n ∉ used' := fun mem => (grown n mem).elim fresh fun new => by omega
  refine ⟨fun m mem => ?_, ⟨?_, fun more agree => ?_⟩, ?_, fun m small outside => ?_⟩
  · rcases Finset.mem_insert.mp mem with rfl | mem
    · exact .inl (Finset.mem_insert_self _ _)
    · exact (grown m mem).imp_left Finset.mem_insert_of_mem
  · rw [List.length_set]
    exact Finset.insert_subset (Finset.mem_range.mpr inside) entries_.inside
  · have put : more[n]? = some new :=
      (agree n (Finset.mem_insert_self _ _)).trans (List.getElem?_set_self inside)
    refine .link put (entries_.means fun m mem => ?_)
    have elsewhere : n ≠ m := fun same => fresh' (same ▸ mem)
    exact (agree m (Finset.mem_insert_of_mem mem)).trans (List.getElem?_set_ne elsewhere)
  · rw [List.length_set]
    exact within.longer
  · rw [Finset.mem_insert, not_or] at outside
    exact (List.getElem?_set_ne (Ne.symm outside.1)).trans (within.elsewhere m small outside.2)

/-! ## Merges -/

namespace SharedConfig

variable {marked : List (List (Datum × Marked))}

theorem getD_of_there (there : cells[n]? = some entries) : cells.getD n [] = entries := by
  rw [List.getD, there, Option.getD_some]

/-- What is taken over is in new cells. -/
theorem taken_whole (v : Marked) (sound : v.Sound marked) (cells : Cells) (own : Finset Nat) :
    let merged := taken marked v cells
    ∃ own', cells.Grown own own' ∧ Whole merged.2 merged.1 v.plain own' ∧
      cells.Within merged.2 own := by
  intro merged
  have longer : cells.length ≤ merged.2.length := by simp [merged, taken]
  refine ⟨Finset.range merged.2.length \ Finset.range cells.length, fun n mem => ?_,
    ⟨Finset.sdiff_subset, fun other agree => ?_⟩, longer, fun n small _ => ?_⟩
  · rw [Finset.mem_sdiff, Finset.mem_range, Finset.mem_range] at mem
    exact .inr (by omega)
  · refine means_copy (fun m entries there => ?_) v sound
    have copied := holds_taken cells v m entries there
    have inside := (List.getElem?_eq_some_iff.mp copied).1
    refine (agree _ ?_).trans copied
    rw [Finset.mem_sdiff, Finset.mem_range, Finset.mem_range]
    exact ⟨inside, by omega⟩
  · exact List.getElem?_append_left small

mutual

/-- A value that is merged into a place changes its cells and no others. -/
theorem mergeValue_whole (top : Bool) (key : Datum) : (v : Marked) → v.Sound marked →
    v.plain.Proper → v.plain.Keyed → {cells : Cells} → {old : Option Slot} →
    {old' : Option Datum} → {own : Finset Nat} → HeldAt cells old old' own →
    let merged := mergeValue marked top key v old cells
    ∃ own', cells.Grown own own' ∧
      Whole merged.2 merged.1 (Config.mergeValue top key v.plain old') own' ∧
      cells.Within merged.2 own
  | .atom d single, sound, _, _, cells, old, old', own, _ => by
    have replaced := taken_whole (.atom d single) sound cells own
    rw [Marked.plain] at replaced ⊢
    rwa [Config.mergeValue_of_plain (Config.plain_of_isKey single)]
  | .list items, sound, _, _, cells, _, _, own, _ =>
    taken_whole (.list items) sound cells own
  | .dict mark user, sound, proper, keyed, cells, old, old', own, heldAt => by
    have replaced := taken_whole (.dict mark user) sound cells own
    rw [Marked.plain] at replaced ⊢
    rw [mergeValue.eq_def]
    dsimp only
    split
    · rename_i keymap
      rwa [Config.mergeValue_keymap keymap]
    · rename_i plain
      have plain := Bool.eq_false_iff.mpr plain
      cases heldAt with
      | none => exact replaced
      | some held =>
        cases held with
        | atom single => rwa [Config.mergeValue_plain (Config.plain_of_isKey single)]
        | list whole =>
          cases whole.means cells fun _ _ => rfl
          exact replaced
        | dict mapped =>
          obtain ⟨done, own', grown, entries', within⟩ :=
            mergeEntries_underway (top && !key.truthy) user sound.2 proper.1 proper.2 keyed
              mapped.underway (fun _ => False.elim)
          rw [Config.mergeValue_mappings plain]
          exact ⟨own', grown,
            ⟨entries'.inside, fun other agree => .dict (entries'.means agree)⟩, within⟩
        | @link n entries tree used there mapped fresh =>
          obtain ⟨done, own', grown, entries', within⟩ :=
            mergeEntries_underway (top && !key.truthy) user sound.2 proper.1 proper.2 keyed
              mapped.underway (fun _ => False.elim)
          rw [Config.mergeValue_mappings plain]
          dsimp only
          rw [getD_of_there there]
          exact ⟨insert n own', relinked there fresh grown within entries'⟩

theorem mergeEntries_underway (top : Bool) : (user : List (Datum × Marked)) →
    Marked.SoundEntries marked user → Distinct (Marked.plainEntries user) →
    ProperEntries (Marked.plainEntries user) → KeyedEntries (Marked.plainEntries user) →
    {cells : Cells} → {entries : List (Datum × Slot)} → {tree : List (Datum × Datum)} →
    {used : Finset Nat} → {done : Datum → Prop} → Underway cells done entries tree used →
    (∀ key, done key → ∀ entry ∈ Marked.plainEntries user, ¬ key.sameKey entry.1 = true) →
    let merged := mergeEntries marked top user entries cells
    ∃ done' used', cells.Grown used used' ∧
      Underway merged.2 done' merged.1
        (Config.mergeEntries top (Marked.plainEntries user) tree) used' ∧
      cells.Within merged.2 used
  | [], _, _, _, _, cells, _, _, used, done, entries_, _ =>
    ⟨done, used, .refl cells used, entries_, ⟨Nat.le_refl _, fun _ _ _ => rfl⟩⟩
  | (key, v) :: rest, sound, distinct, proper, keyed, cells, entries, tree, used, done, entries_,
      ahead => by
    rw [Marked.plainEntries] at distinct proper keyed ahead ⊢
    rw [KeyedEntries] at keyed
    obtain ⟨once, distinct⟩ := List.pairwise_cons.mp distinct
    obtain ⟨own, less, heldAt, put⟩ := entries_.focus keyed.1 fun key' is =>
      ahead key' is _ (.head _)
    obtain ⟨own', grown, whole, within⟩ :=
      mergeValue_whole top key v sound.1 proper.1 keyed.2.1 heldAt
    obtain ⟨used', grown', entries'⟩ := put _ _ _ own' grown within whole
    obtain ⟨done', used'', grown'', entries'', within'⟩ :=
      mergeEntries_underway top rest sound.2 distinct proper.2 keyed.2.2 entries'
        fun key' is entry mem same => by
          have isKey := keyed.2.2.of_mem mem
          rcases is with is | mine
          · exact ahead key' is entry (.tail _ mem) same
          · have again : key.sameKey entry.1 = true := (sameKey_iff isKey).mpr
              (((sameKey_iff keyed.1).mp mine).symm.trans ((sameKey_iff isKey).mp same))
            rw [once _ mem] at again
            cases again
    rw [mergeEntries, Config.mergeEntries]
    refine ⟨done', used'', fun n mem => ?_, entries'', within.longer.trans within'.longer,
      fun n small outside => ?_⟩
    · rcases grown'' n mem with mem | new
      · exact grown' n mem
      · exact .inr (within.longer.trans new)
    · have outside' : n ∉ used' := fun mem => (grown' n mem).elim outside (by omega)
      exact (within'.elsewhere n (small.trans_le within.longer) outside').trans
        (within.elsewhere n small fun mem => outside (less mem))

end

/-- Each mapping of a configuration stands in one place. -/
def SharesNothing (c : SharedConfig) : Prop :=
  ∃ tree used, Mapped c.cells c.settings tree used

theorem sharesNothing_unshared (c : Config) : SharesNothing c :=
  ⟨c.settings, ∅, mapped_ofEntries [] c.settings⟩

theorem plain_of_means {c : SharedConfig} (each : MeansEntries c.cells c.settings tree) :
    c.plain = ⟨tree⟩ := by
  rw [plain, each.plain]

/-- A document of a mapping has entries that can be merged in. -/
theorem entries_of_plain {user : Document} (sound : user.Sound)
    {given : List (Datum × Datum)} (holds : user.plain = .dict given) : ∃ entries,
      Marked.plainEntries entries = given ∧ Marked.SoundEntries user.marked entries ∧
      ∀ c : SharedConfig, c.merge user =
        ⟨(mergeEntries user.marked true entries c.settings c.cells).1,
          (mergeEntries user.marked true entries c.settings c.cells).2⟩ := by
  obtain ⟨marked, value⟩ := user
  cases value with
  | atom d single =>
    cases (show d = .dict given from holds)
    cases single
  | list items => cases holds
  | dict mark entries => exact ⟨entries, Datum.dict.inj holds, sound.2, fun c => rfl⟩

/-- **A merge in place** into mappings in places of their own is a merge. -/
theorem SharesNothing.merge {c : SharedConfig} (apart : c.SharesNothing) {user : Document}
    (sound : user.Sound) {given : List (Datum × Datum)} (holds : user.plain = .dict given)
    (proper : (Datum.dict given).Proper) (keyed : KeyedEntries given) :
    MeansEntries (c.merge user).cells (c.merge user).settings (c.plain.merge given).settings := by
  obtain ⟨tree, used, mapped⟩ := apart
  obtain ⟨entries, rfl, sound, merged⟩ := entries_of_plain sound holds
  obtain ⟨done, used', -, entries', -⟩ := mergeEntries_underway true entries sound proper.1
    proper.2 keyed mapped.underway fun _ => False.elim
  rw [merged, plain_of_means mapped.means]
  exact entries'.means fun _ _ => rfl

end SharedConfig
end ChipEight
