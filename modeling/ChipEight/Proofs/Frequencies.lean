import ChipEight.Proofs.DeepMerge
import ChipEight.Proofs.Snapshots
import Mathlib.Algebra.BigOperators.Group.List.Lemmas
/-! # What was executed most

A tally has an entry for each kind of items, in the order in which the kinds came first, and a
ranking puts the entries in the order of falling counts, which leaves what occurs equally often in
the order of the tally (`Trace.filter_ranked`).  So the counts and the first appearances decide
together where a kind stands (`Trace.Tallied.ranking`).  The instructions of a trace are ranked by
the first words of their mnemonics, and its addresses as they are; a limit shows the beginning of
the ranking of addresses, and a larger one goes on where a smaller one ends
(`Trace.executions_ranked`). -/

namespace ChipEight

namespace Trace

open Datum

/-! ## Rankings -/

section Rankings

variable {α κ : Type} {same : α → α → Bool} {kind : α → κ} {xs : List α} {x : α}
  {counts : List (α × Nat)}

/-- The items of a list, each kind once with the number of its items: the most frequent first, and
of equally frequent ones the one that came first. -/
structure Ranking (same : α → α → Bool) (xs : List α) (ranking : List (α × Nat)) : Prop where
  exact : ∀ entry ∈ ranking, entry.1 ∈ xs ∧ entry.2 = xs.countP (same entry.1)
  all : ∀ x ∈ xs, ∃ entry ∈ ranking, same entry.1 x = true
  once : ranking.Pairwise fun entry later => same entry.1 later.1 = false
  order : ranking.Pairwise fun entry later => later.2 < entry.2 ∨
    entry.2 = later.2 ∧ xs.findIdx (same entry.1) < xs.findIdx (same later.1)

/-- The items of a list are the same if they are of one kind. -/
def OfKinds (same : α → α → Bool) (kind : α → κ) (xs : List α) : Prop :=
  ∀ a ∈ xs, ∀ b ∈ xs, (same a b = true ↔ kind a = kind b)

theorem OfKinds.init (kinds : OfKinds same kind (xs ++ [x])) : OfKinds same kind xs :=
  fun a mem b mem' => kinds a (List.mem_append_left _ mem) b (List.mem_append_left _ mem')

theorem OfKinds.self (kinds : OfKinds same kind xs) (mem : x ∈ xs) : same x x = true :=
  (kinds x mem x mem).mpr rfl

/-- What has counted the items of a list: an entry for each kind, in the order of their coming. -/
structure Tallied (same : α → α → Bool) (xs : List α) (counts : List (α × Nat)) : Prop where
  exact : ∀ entry ∈ counts, entry.1 ∈ xs ∧ entry.2 = xs.countP (same entry.1)
  all : ∀ x ∈ xs, ∃ entry ∈ counts, same entry.1 x = true
  order : counts.Pairwise fun entry later =>
    xs.findIdx (same entry.1) < xs.findIdx (same later.1)

/-- An entry after one item more. -/
def raised (same : α → α → Bool) (x : α) (entry : α × Nat) : α × Nat :=
  (entry.1, if same entry.1 x then entry.2 + 1 else entry.2)

/-- One item more raises the count of its kind, if that has come already, and else begins a new
one. -/
theorem tally_concat (same : α → α → Bool) (xs : List α) (x : α) :
    tally same (xs ++ [x]) =
      if (tally same xs).any fun entry => same entry.1 x then (tally same xs).map (raised same x)
      else tally same xs ++ [(x, 1)] := by
  rw [tally, List.foldl_append, ← tally, List.foldl_cons, List.foldl_nil]
  refine if_congr Iff.rfl (List.map_congr_left fun entry _ => ?_) rfl
  obtain ⟨y, n⟩ := entry
  rw [raised]
  dsimp only
  split <;> rfl

/-- What has come already stands where it came first, whatever comes now. -/
theorem Tallied.findIdx (tallied : Tallied same xs counts) (kinds : OfKinds same kind xs) (x : α)
    {entry : α × Nat} (mem : entry ∈ counts) :
    (xs ++ [x]).findIdx (same entry.1) = xs.findIdx (same entry.1) := by
  have among := (tallied.exact entry mem).1
  rw [List.findIdx_append, if_pos (List.findIdx_lt_length.mpr ⟨_, among, kinds.self among⟩)]

/-- An item of a known kind. -/
theorem Tallied.known (tallied : Tallied same xs counts) (kinds : OfKinds same kind (xs ++ [x]))
    (known : ∃ entry ∈ counts, same entry.1 x = true) :
    Tallied same (xs ++ [x]) (counts.map (raised same x)) where
  exact := List.forall_mem_map.mpr fun entry mem => by
    obtain ⟨among, count⟩ := tallied.exact entry mem
    refine ⟨List.mem_append_left _ among, ?_⟩
    rw [raised, List.countP_append, List.countP_singleton, count]
    dsimp only
    split <;> rfl
  all := fun y mem => by
    have found : ∃ entry ∈ counts, same entry.1 y = true := by
      rcases List.mem_append.mp mem with old | new
      · exact tallied.all y old
      · exact List.mem_singleton.mp new ▸ known
    obtain ⟨entry, old, matches_⟩ := found
    exact ⟨_, List.mem_map_of_mem old, matches_⟩
  order := List.pairwise_map.mpr <| tallied.order.imp_of_mem fun {a b} mem mem' before => by
    rw [raised, raised, tallied.findIdx kinds.init x mem, tallied.findIdx kinds.init x mem']
    exact before

/-- An item of a new kind. -/
theorem Tallied.new (tallied : Tallied same xs counts) (kinds : OfKinds same kind (xs ++ [x]))
    (new : ∀ entry ∈ counts, same entry.1 x = false) :
    Tallied same (xs ++ [x]) (counts ++ [(x, 1)]) := by
  have last : x ∈ xs ++ [x] := by simp
  have alone : ∀ y ∈ xs, same x y = false := fun y mem => Bool.eq_false_iff.mpr fun alike => by
    obtain ⟨entry, old, matches_⟩ := tallied.all y mem
    have among := List.mem_append_left [x] (tallied.exact entry old).1
    have there := List.mem_append_left [x] mem
    have one := ((kinds _ among y there).mp matches_).trans ((kinds x last y there).mp alike).symm
    exact Bool.false_ne_true ((new entry old).symm.trans ((kinds _ among x last).mpr one))
  have first : (xs ++ [x]).findIdx (same x) = xs.length := by
    rw [List.findIdx_append, List.findIdx_eq_length_of_false alone, if_neg (Nat.lt_irrefl _),
      List.findIdx_singleton, kinds.self last, if_pos rfl, Nat.zero_add]
  refine ⟨fun entry mem => ?_, fun y mem => ?_, List.pairwise_append.mpr ⟨?_, ?_, ?_⟩⟩
  · rw [List.countP_append, List.countP_singleton]
    rcases List.mem_append.mp mem with old | own
    · obtain ⟨among, count⟩ := tallied.exact entry old
      rw [new entry old, count]
      exact ⟨List.mem_append_left _ among, rfl⟩
    · obtain rfl := List.mem_singleton.mp own
      rw [kinds.self last, List.countP_eq_zero.mpr fun y mem => Bool.eq_false_iff.mp (alone y mem)]
      exact ⟨last, rfl⟩
  · rcases List.mem_append.mp mem with old | own
    · obtain ⟨entry, old, matches_⟩ := tallied.all y old
      exact ⟨entry, List.mem_append_left _ old, matches_⟩
    · obtain rfl := List.mem_singleton.mp own
      exact ⟨(y, 1), by simp, kinds.self last⟩
  · refine tallied.order.imp_of_mem fun {a b} mem mem' before => ?_
    rw [tallied.findIdx kinds.init x mem, tallied.findIdx kinds.init x mem']
    exact before
  · exact List.pairwise_singleton _ _
  · intro entry mem later own
    obtain rfl := List.mem_singleton.mp own
    have among := (tallied.exact entry mem).1
    rw [tallied.findIdx kinds.init x mem, first]
    exact List.findIdx_lt_length.mpr ⟨_, among, kinds.init.self among⟩

/-- **A tally counts all items of a list.** -/
theorem tallied_tally (kinds : OfKinds same kind xs) : Tallied same xs (tally same xs) := by
  induction xs using List.reverseRecOn with
  | nil => exact ⟨nofun, nofun, .nil⟩
  | append_singleton xs x ih =>
    have tallied := ih kinds.init
    rw [tally_concat]
    split
    · rename_i known
      exact tallied.known kinds (List.any_eq_true.mp known)
    · rename_i new
      exact tallied.new kinds fun entry mem =>
        Bool.eq_false_iff.mpr fun known => new (List.any_eq_true.mpr ⟨entry, mem, known⟩)

theorem falls_trans (a b c : α × Nat) (ab : decide (b.2 ≤ a.2) = true)
    (bc : decide (c.2 ≤ b.2) = true) : decide (c.2 ≤ a.2) = true := by
  rw [decide_eq_true_iff] at *
  exact bc.trans ab

theorem falls_total (a b : α × Nat) : (decide (b.2 ≤ a.2) || decide (a.2 ≤ b.2)) = true := by
  rw [Bool.or_eq_true, decide_eq_true_iff, decide_eq_true_iff]
  exact Nat.le_total b.2 a.2

/-- The counts of a ranking fall. -/
theorem ranked_falls (counts : List (α × Nat)) : (ranked counts).Pairwise fun a b => b.2 ≤ a.2 :=
  (List.pairwise_mergeSort falls_trans falls_total counts).imp of_decide_eq_true

/-- What occurs equally often keeps its order in a ranking. -/
theorem filter_ranked (counts : List (α × Nat)) (n : Nat) :
    ((ranked counts).filter fun entry => entry.2 = n) = counts.filter fun entry => entry.2 = n := by
  have equal : (counts.filter fun entry => entry.2 = n).Pairwise fun a b =>
      decide (b.2 ≤ a.2) = true := by
    refine List.pairwise_filter.mpr (List.pairwise_of_forall fun a b counted counted' => ?_)
    rw [decide_eq_true_iff] at *
    omega
  have inside : (counts.filter fun entry => entry.2 = n).Sublist (ranked counts) :=
    List.sublist_mergeSort falls_trans falls_total equal List.filter_sublist
  have all := inside.filter fun entry => decide (entry.2 = n)
  simp only [List.filter_filter, Bool.and_self] at all
  exact (all.eq_of_length ((List.mergeSort_perm counts _).filter _).length_eq.symm).symm

theorem mem_ranked {entry : α × Nat} : entry ∈ ranked counts ↔ entry ∈ counts := List.mem_mergeSort

/-- **A ranking is decided by the counts and the first appearances.** -/
theorem Tallied.ranking (tallied : Tallied same xs counts) (kinds : OfKinds same kind xs) :
    Ranking same xs (ranked counts) := by
  have exact_ : ∀ entry ∈ ranked counts, entry.1 ∈ xs ∧ entry.2 = xs.countP (same entry.1) :=
    fun entry mem => tallied.exact entry (mem_ranked.mp mem)
  have order : (ranked counts).Pairwise fun entry later => later.2 < entry.2 ∨
      entry.2 = later.2 ∧ xs.findIdx (same entry.1) < xs.findIdx (same later.1) := by
    refine List.pairwise_of_forall_sublist fun {a b} inside => ?_
    rcases Nat.lt_or_eq_of_le ((ranked_falls counts).forall_sublist inside) with less | equal
    · exact .inl less
    · have both := inside.filter fun entry => decide (entry.2 = a.2)
      rw [filter_ranked] at both
      simp only [List.filter_cons, equal, decide_true, if_true, List.filter_nil] at both
      exact .inr ⟨equal.symm, tallied.order.forall_sublist (both.trans List.filter_sublist)⟩
  refine ⟨exact_, fun x mem => ?_, ?_, order⟩
  · obtain ⟨entry, there, matches_⟩ := tallied.all x mem
    exact ⟨entry, mem_ranked.mpr there, matches_⟩
  · refine order.imp_of_mem fun {a b} mem mem' before => Bool.eq_false_iff.mpr fun alike => ?_
    have one := (kinds _ (exact_ a mem).1 _ (exact_ b mem').1).mp alike
    have agree : ∀ y ∈ xs, same a.1 y = same b.1 y := fun y there => by
      rw [Bool.eq_iff_iff, kinds _ (exact_ a mem).1 y there, kinds _ (exact_ b mem').1 y there, one]
    have early := List.findIdx_le_findIdx fun y there (yes : same a.1 y = true) =>
      (agree y there).symm.trans yes
    have late := List.findIdx_le_findIdx fun y there (yes : same b.1 y = true) =>
      (agree y there).trans yes
    have count : a.2 = b.2 := by
      rw [(exact_ a mem).2, (exact_ b mem').2]
      exact List.countP_congr fun y there => by rw [agree y there]
    omega

variable [DecidableEq α] {ranking : List (α × Nat)}

/-- A ranking of what is compared by equality has exactly the items of the list. -/
theorem Ranking.mem_iff (ranks : Ranking (· == ·) xs ranking) (x : α) (n : Nat) :
    (x, n) ∈ ranking ↔ 0 < n ∧ n = xs.count x := by
  have counted (y : α) : xs.countP (y == ·) = xs.count y :=
    List.countP_congr fun z _ => by rw [beq_iff_eq, beq_iff_eq, eq_comm]
  refine ⟨fun mem => ?_, fun ⟨pos, count⟩ => ?_⟩
  · obtain ⟨among, count⟩ := ranks.exact _ mem
    have count : n = xs.count x := count.trans (counted x)
    exact ⟨count ▸ List.count_pos_iff.mpr among, count⟩
  · obtain ⟨⟨y, m⟩, there, alike⟩ := ranks.all x (List.count_pos_iff.mp (count ▸ pos))
    obtain rfl : y = x := beq_iff_eq.mp alike
    have same_ : m = xs.count y := (ranks.exact _ there).2.trans (counted y)
    rwa [count, ← same_]

/-- The counts of such a ranking come to the length of the list. -/
theorem Ranking.sum (ranks : Ranking (· == ·) xs ranking) :
    (ranking.map Prod.snd).sum = xs.length := by
  have once : (ranking.map Prod.fst).Nodup :=
    List.pairwise_map.mpr (ranks.once.imp fun {a b} other => beq_eq_false_iff_ne.mp other)
  have items : (ranking.map Prod.fst).Perm xs.dedup :=
    (List.perm_ext_iff_of_nodup once xs.nodup_dedup).mpr fun x => by
      rw [List.mem_dedup]
      refine ⟨fun mem => ?_, fun mem => ?_⟩
      · obtain ⟨entry, there, rfl⟩ := List.mem_map.mp mem
        exact (ranks.exact entry there).1
      · exact List.mem_map_of_mem ((ranks.mem_iff x _).mpr ⟨List.count_pos_iff.mpr mem, rfl⟩)
  have counts : ranking.map Prod.snd = (ranking.map Prod.fst).map fun x => xs.count x := by
    rw [List.map_map]
    exact List.map_congr_left fun entry mem => ((ranks.mem_iff entry.1 entry.2).mp mem).2
  rw [counts, (items.map _).sum_eq, List.sum_map_count_dedup_eq_length]

end Rankings

/-! ## Words -/

/-- A word that a text begins with: up to its first blank, or to its end if it has none. -/
def Begins (word text : String) : Prop :=
  ' ' ∉ word.toList ∧ (text = word ∨ ∃ rest, text = word ++ " " ++ rest)

theorem begins_iff {word text : String} : Begins word text ↔ firstWord text = word := by
  rw [firstWord]
  constructor
  · rintro ⟨whole, ends⟩
    have all : ∀ c ∈ word.toList, (c != ' ') = true := fun c mem =>
      bne_iff_ne.mpr fun blank => whole (blank ▸ mem)
    have taken : text.toList.takeWhile (· != ' ') = word.toList := by
      rcases ends with rfl | ⟨rest, rfl⟩
      · exact List.takeWhile_eq_self_iff.mpr all
      · rw [String.toList_append, String.toList_append, List.append_assoc,
          List.takeWhile_append_of_pos all]
        exact List.append_nil _
    rw [taken, String.ofList_toList]
  · rintro rfl
    have split_ := List.takeWhile_append_dropWhile (p := (· != ' ')) (l := text.toList)
    rw [Begins, String.toList_ofList]
    refine ⟨fun blank => ?_, ?_⟩
    · have other := List.mem_takeWhile_imp blank
      cases other
    have after := List.head?_dropWhile_not (· != ' ') text.toList
    cases rest : text.toList.dropWhile (· != ' ') with
    | nil =>
      rw [rest, List.append_nil] at split_
      exact .inl (by rw [split_, String.ofList_toList])
    | cons c cs =>
      rw [rest] at split_ after
      obtain rfl : c = ' ' := bne_eq_false_iff_eq.mp after
      refine .inr ⟨String.ofList cs, String.toList_inj.mp (split_.symm.trans ?_)⟩
      simp

instance (word text : String) : Decidable (Begins word text) := decidable_of_iff _ begins_iff.symm

/-- The word that a snapshot's mnemonic begins with. -/
def word? (s : Datum) : Option String :=
  match s.field? "mnemonic" with
  | some (.text mnemonic) => some (firstWord mnemonic)
  | _ => none

/-- A snapshot of an instruction whose mnemonic begins with a word. -/
def Executes (word : String) (s : Datum) : Prop :=
  ∃ mnemonic, s.field? "mnemonic" = some (.text mnemonic) ∧ Begins word mnemonic

variable {name : String} {s : Datum} {history : List Datum}

theorem executes_iff {word : String} : Executes word s ↔ word? s = some word := by
  rw [Executes, word?]
  constructor
  · rintro ⟨mnemonic, there, begins⟩
    rw [there, ← begins_iff.mp begins]
  · intro found
    split at found
    · rename_i mnemonic there
      exact ⟨mnemonic, there, begins_iff.mpr (Option.some.inj found)⟩
    · cases found

instance (word : String) (s : Datum) : Decidable (Executes word s) :=
  decidable_of_iff _ executes_iff.symm

/-! ## Questions for frequencies -/

/-- A mapping whose mnemonic, if it has one, is a text, and whose address, if it has one, can be a
key and is the same as itself. -/
structure Locates (s : Datum) : Prop where
  mapping : s.IsMapping
  mnemonic : ∀ d, s.field? "mnemonic" = some d → ∃ text, d = .text text
  address : ∀ d, s.field? "pc" = some d → d.isKey = true ∧ d.same d = true

theorem valuesOf_eq (mappings : ∀ s ∈ history, s.IsMapping) (name : String) :
    valuesOf name history = .ok (history.filterMap (·.field? name)) := by
  induction history with
  | nil => rfl
  | cons s rest ih =>
    rw [List.forall_mem_cons] at mappings
    rw [valuesOf, mappings.1.contains]
    cases there : s.field? name with
    | none =>
      rw [List.filterMap_cons_none there]
      exact ih mappings.2
    | some d =>
      rw [List.filterMap_cons_some there, ih mappings.2]
      simp only [bind, Except.bind, Option.isSome_some, if_true, index_of_field? there]
      rfl

/-- The words that the mnemonics of a history begin with. -/
def words (history : List Datum) : List String := history.filterMap word?

theorem words_eq
    (texts : ∀ s ∈ history, ∀ d, s.field? "mnemonic" = some d → ∃ text, d = .text text) :
    ((history.filterMap (·.field? "mnemonic")).mapM fun
      | .text s => .ok (firstWord s)
      | _ => .error .lacking : Except Failure (List String)) = .ok (words history) := by
  induction history with
  | nil => rfl
  | cons s rest ih =>
    rw [List.forall_mem_cons] at texts
    rw [words] at *
    cases there : s.field? "mnemonic" with
    | none =>
      have wordless : word? s = none := by rw [word?, there]
      rw [List.filterMap_cons_none there, List.filterMap_cons_none wordless]
      exact ih texts.2
    | some d =>
      obtain ⟨text, rfl⟩ := texts.1 d there
      have word : word? s = some (firstWord text) := by rw [word?, there]
      rw [List.filterMap_cons_some there, List.filterMap_cons_some word, List.mapM_cons,
        ih texts.2]
      rfl

/-- A word comes as often as it is executed. -/
theorem count_words (word : String) (history : List Datum) :
    (words history).count word = history.countP fun s => Executes word s := by
  rw [words, List.count_filterMap]
  exact List.countP_congr fun s _ => by rw [beq_iff_eq, decide_eq_true_iff, executes_iff]

theorem length_words
    (texts : ∀ s ∈ history, ∀ d, s.field? "mnemonic" = some d → ∃ text, d = .text text) :
    (words history).length = history.countP fun s => (s.field? "mnemonic").isSome := by
  rw [words, List.length_filterMap_eq_countP]
  refine List.countP_congr fun s mem => ?_
  rw [word?]
  cases there : s.field? "mnemonic" with
  | none => rfl
  | some d =>
    obtain ⟨text, rfl⟩ := texts s mem d there
    rfl

/-- What is the same as itself is a number, if it is a number at all. -/
theorem isNaN_of_same_self {d : Datum} (self : d.same d = true) : d.isNaN = false := by
  cases d with
  | number n =>
    refine Bool.eq_false_iff.mpr fun nan => ?_
    obtain ⟨place, there, -⟩ := (Number.same_iff n n).mp (by rwa [same] at self)
    rw [(isNaN_number n).mp nan] at there
    cases there
  | _ => rfl

/-- The addresses of a trace. -/
def addresses (history : List Datum) : List Datum := history.filterMap (·.field? "pc")

theorem of_mem_addresses (locates : ∀ s ∈ history, Locates s) :
    ∀ d ∈ addresses history, d.isKey = true ∧ d.same d = true := fun d mem => by
  obtain ⟨s, mem, there⟩ := List.mem_filterMap.mp mem
  exact (locates s mem).address d there

/-- Addresses are the same that are known by one identity. -/
theorem ofKinds_addresses (locates : ∀ s ∈ history, Locates s) :
    OfKinds same identity? (addresses history) := fun a mem b mem' => by
  obtain ⟨-, self⟩ := of_mem_addresses locates a mem
  obtain ⟨isKey, -⟩ := of_mem_addresses locates b mem'
  rw [← sameKey_iff isKey, sameKey, isNaN_of_same_self self, Bool.false_and, Bool.or_false]

theorem opcodeHistogram_eq {t : Trace} (locates : ∀ s ∈ t.history, Locates s) :
    t.opcodeHistogram = .ok (ranked (tally (· == ·) (words t.history))) := by
  rw [opcodeHistogram, valuesOf_eq fun s mem => (locates s mem).mapping]
  exact congrArg (· >>= fun words => pure (ranked (tally (· == ·) words)))
    (words_eq fun s mem => (locates s mem).mnemonic)

theorem hotAddresses_eq {t : Trace} (locates : ∀ s ∈ t.history, Locates s) (limit : Option Int) :
    t.hotAddresses limit = .ok (limit.elim (ranked (tally same (addresses t.history)))
      fun n => (ranked (tally same (addresses t.history))).take n.toNat) := by
  have keys : (addresses t.history).all isKey = true :=
    List.all_eq_true.mpr fun d mem => (of_mem_addresses locates d mem).1
  rw [hotAddresses, valuesOf_eq fun s mem => (locates s mem).mapping]
  refine (if_pos keys).trans ?_
  cases limit <;> rfl

/-- **What was executed most.**  The histogram of a trace ranks the words that its mnemonics begin
with: each has the number of the snapshots that execute it, and all together have the number of
those that have a mnemonic.  The hot addresses are the beginning of the ranking of all addresses, as
long as the limit says, so that a larger limit shows the same and goes on. -/
theorem executions_ranked {t : Trace} (locates : ∀ s ∈ t.history, Locates s) :
    (∃ histogram, t.opcodeHistogram = .ok histogram ∧
      Ranking (· == ·) (words t.history) histogram ∧
      (∀ word n, (word, n) ∈ histogram ↔ 0 < n ∧ n = t.history.countP fun s => Executes word s) ∧
      (histogram.map Prod.snd).sum = t.history.countP fun s => (s.field? "mnemonic").isSome) ∧
    ∃ all, t.hotAddresses none = .ok all ∧ Ranking same (addresses t.history) all ∧
      (∀ limit : Int, t.hotAddresses (some limit) = .ok (all.take (max limit 0).toNat)) ∧
      ∀ limit larger : Int, limit ≤ larger → ∃ hot more, t.hotAddresses (some limit) = .ok hot ∧
        t.hotAddresses (some larger) = .ok (hot ++ more) := by
  have kinds : OfKinds (· == ·) id (words t.history) := fun a _ b _ => beq_iff_eq
  have ranks := (tallied_tally kinds).ranking kinds
  have hot := hotAddresses_eq locates
  have addressed := ofKinds_addresses locates
  refine ⟨⟨_, opcodeHistogram_eq locates, ranks, ?_, ?_⟩, _, hot none,
    (tallied_tally addressed).ranking addressed, ?_, ?_⟩
  · intro word n
    rw [ranks.mem_iff, count_words]
  · rw [ranks.sum, length_words fun s mem => (locates s mem).mnemonic]
  · intro limit
    rw [hot, show (max limit 0).toNat = limit.toNat by omega]
    rfl
  · intro limit larger le
    obtain ⟨more, goesOn⟩ := List.take_prefix_take_left (Int.toNat_le_toNat le)
    exact ⟨_, more, hot (some limit), (hot (some larger)).trans (congrArg Except.ok goesOn.symm)⟩

/-- A trace with two instructions whose words begin alike, one address twice, a snapshot without a
mnemonic and one without an address. -/
def subtracting : Trace where
  limit := none
  filter := none
  history := [
    .record [("pc", .int 0x200), ("mnemonic", .text "SUB V0, V1")],
    .record [("pc", .int 0x202), ("mnemonic", .text "SUBN V0, V1")],
    .record [("pc", .int 0x204)],
    .record [("pc", .int 0x202), ("mnemonic", .text "CLS")],
    .record [("mnemonic", .text "SUB V2, V3")]]

theorem executions_ranked_subtracting : (∀ s ∈ subtracting.history, Locates s) ∧
    (∃ histogram, subtracting.opcodeHistogram = .ok histogram ∧ ("SUB", 2) ∈ histogram ∧
      ("SUBN", 1) ∈ histogram ∧ ("CLS", 1) ∈ histogram ∧ (histogram.map Prod.snd).sum = 4) ∧
    subtracting.hotAddresses (some (-1)) = .ok [] ∧ ∃ hot more,
      subtracting.hotAddresses (some 1) = .ok hot ∧
      subtracting.hotAddresses (some 3) = .ok (hot ++ more) := by
  have locates : ∀ s ∈ subtracting.history, Locates s := by
    simp only [subtracting, List.forall_mem_cons]
    refine ⟨?_, ?_, ?_, ?_, ?_, nofun⟩
    · exact ⟨⟨_, rfl⟩, by rintro _ ⟨⟩; exact ⟨_, rfl⟩, by rintro _ ⟨⟩; exact ⟨rfl, rfl⟩⟩
    · exact ⟨⟨_, rfl⟩, by rintro _ ⟨⟩; exact ⟨_, rfl⟩, by rintro _ ⟨⟩; exact ⟨rfl, rfl⟩⟩
    · exact ⟨⟨_, rfl⟩, nofun, by rintro _ ⟨⟩; exact ⟨rfl, rfl⟩⟩
    · exact ⟨⟨_, rfl⟩, by rintro _ ⟨⟩; exact ⟨_, rfl⟩, by rintro _ ⟨⟩; exact ⟨rfl, rfl⟩⟩
    · exact ⟨⟨_, rfl⟩, by rintro _ ⟨⟩; exact ⟨_, rfl⟩, nofun⟩
  obtain ⟨⟨histogram, asked, -, counts, sum⟩, all, -, -, limited, goesOn⟩ :=
    executions_ranked locates
  refine ⟨locates, ⟨histogram, asked, (counts _ _).mpr ?_, (counts _ _).mpr ?_,
    (counts _ _).mpr ?_, sum.trans ?_⟩, limited (-1), goesOn 1 3 (by decide)⟩
  all_goals decide +kernel

end Trace
end ChipEight
