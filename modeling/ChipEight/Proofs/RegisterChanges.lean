import ChipEight.Proofs.Snapshots
import Mathlib.Data.List.Basic
/-! # The changes of a register

The snapshots that have a register make a list of readings, and its changes are the neighbors in the
list that differ.  The search for changes carries the last reading through the history, over what
lies before the window and no further than its end (`Trace.changesFrom_eq`).  As the cycles rise, it
finds the changes of the whole history whose cycles lie in the window, and windows that meet find
together what one window over both finds (`Trace.changes_are_differences`). -/

namespace ChipEight.Trace

open Datum

/-! ## Readings -/

/-- A snapshot that has a register, with its cycle and the register's value. -/
structure Reading where
  snapshot : Datum
  cycle : Int
  value : Int

/-- What a snapshot has under the name of a register. -/
def register? (r : String) (s : Datum) : Option Datum := (s.field? "registers").bind (·.field? r)

/-- How a register stands in a snapshot, if it has it. -/
def reading? (r : String) (s : Datum) : Option Reading :=
  match s.field? "cycle", register? r s with
  | some (.number (.int cycle)), some (.number (.int value)) => some ⟨s, cycle, value⟩
  | _, _ => none

/-- The readings of a register in a history. -/
def readings (r : String) (history : List Datum) : List Reading := history.filterMap (reading? r)

/-- A mapping with a cycle, and with registers if it has any, of which one holds a whole number. -/
structure Tracked (r : String) (s : Datum) : Prop where
  mapping : s.IsMapping
  cycle : ∃ n : Int, s.field? "cycle" = some (.int n)
  registers : ∀ d, s.field? "registers" = some d → d.IsMapping
  value : ∀ d, register? r s = some d → ∃ v : Int, d = .int v

/-- A history in which a register can be followed, with cycles that do not fall. -/
structure Chronicle (r : String) (history : List Datum) : Prop where
  tracked : ∀ s ∈ history, Tracked r s
  rising : history.Pairwise fun s s' => ∀ n n' : Int,
    cycle? s = some (.int n) → cycle? s' = some (.int n') → n ≤ n'

variable {r : String} {s : Datum} {history : List Datum}

theorem reading?_eq_some {x : Reading} : reading? r s = some x ↔
    s.field? "cycle" = some (.int x.cycle) ∧ register? r s = some (.int x.value) ∧
      x.snapshot = s := by
  rw [reading?]
  constructor
  · intro read
    split at read
    · rename_i cycle value there there'
      cases read
      exact ⟨there, there', rfl⟩
    · cases read
  · obtain ⟨s', cycle, value⟩ := x
    rintro ⟨there, there', rfl⟩
    dsimp only at there there'
    rw [there, there']
    rfl

/-- The registers of a snapshot, and whether the one that is followed is among them. -/
theorem Tracked.cases (tracked : Tracked r s) : ∃ registers, registersOf s = .ok registers ∧
    (registers.contains r = .ok false ∧ reading? r s = none ∨
      ∃ x, reading? r s = some x ∧ registers.contains r = .ok true ∧
        registers.index r = .ok (.int x.value) ∧
        ∀ default, s.getD "cycle" default = .ok (.int x.cycle)) := by
  obtain ⟨cycle, timed⟩ := tracked.cycle
  have among := tracked.value
  rw [registersOf, tracked.mapping.getD]
  cases there : s.field? "registers" with
  | none =>
    refine ⟨_, rfl, .inl ⟨rfl, ?_⟩⟩
    have absent : register? r s = none := by rw [register?, there, Option.bind_none]
    rw [reading?, timed, absent]
    rfl
  | some registers =>
    have mapping := tracked.registers registers there
    have found : register? r s = registers.field? r := by
      rw [register?, there, Option.bind_some]
    rw [found] at among
    refine ⟨registers, rfl, ?_⟩
    rw [mapping.contains]
    cases has : registers.field? r with
    | none =>
      refine .inl ⟨rfl, ?_⟩
      rw [reading?, timed, found, has]
      rfl
    | some d =>
      obtain ⟨v, rfl⟩ := among d has
      refine .inr ⟨⟨s, cycle, v⟩, reading?_eq_some.mpr ⟨timed, found.trans has, rfl⟩, rfl,
        index_of_field? has, fun default => ?_⟩
      rw [tracked.mapping.getD, timed, Option.getD_some]

theorem Chronicle.rising_readings (chronicle : Chronicle r history) :
    (readings r history).Pairwise fun x x' => x.cycle ≤ x'.cycle := by
  rw [readings, List.pairwise_filterMap]
  refine chronicle.rising.imp fun {s s'} rising x read x' read' => ?_
  have cycle {x : Reading} {s : Datum} (read : reading? r s = some x) :
      cycle? s = some (.int x.cycle) := by
    rw [cycle?, (reading?_eq_some.mp read).1]
    rfl
  exact rising x.cycle x'.cycle (cycle read) (cycle read')

/-! ## The history of a register -/

/-- **The history of a register** has the cycles and the values of its readings. -/
theorem registerHistory_eq {t : Trace} (tracked : ∀ s ∈ t.history, Tracked r s) :
    t.registerHistory r =
      .ok ((readings r t.history).map fun x => (.int x.cycle, .int x.value)) := by
  suffices from_ : ∀ history : List Datum, (∀ s ∈ history, Tracked r s) →
      ∀ found : List (Datum × Datum), (history.foldlM (fun found s => do
        let registers ← registersOf s
        if ← registers.contains r then
          let cycle ← s.getD "cycle" (.int found.length)
          return found ++ [(cycle, ← registers.index r)]
        else return found) found : Except Failure (List (Datum × Datum))) =
        .ok (found ++ (readings r history).map fun x => (.int x.cycle, .int x.value)) from
    from_ t.history tracked []
  intro history tracked
  induction history with
  | nil => exact fun found => congrArg Except.ok (List.append_nil found).symm
  | cons s rest ih =>
    rw [List.forall_mem_cons] at tracked
    intro found
    obtain ⟨registers, has, ⟨absent, unread⟩ | ⟨x, read, present, value, cycle⟩⟩ := tracked.1.cases
    · rw [List.foldlM_cons, readings, List.filterMap_cons_none unread]
      simp only [has, absent, bind, Except.bind]
      exact ih tracked.2 found
    · rw [List.foldlM_cons, readings, List.filterMap_cons_some read, List.map_cons,
        List.append_cons]
      simp only [has, present, value, cycle, bind, Except.bind]
      exact ih tracked.2 _

/-! ## Changes -/

/-- The neighbors among readings whose values differ. -/
def differences (xs : List Reading) : List (Reading × Reading) :=
  (xs.zip xs.tail).filter fun (x, y) => x.value ≠ y.value

/-- What is told of a change: cycle, address and instruction of the later snapshot, and both
values. -/
def changeOf (change : Reading × Reading) : Datum :=
  .record [
    ("cycle", .int change.2.cycle),
    ("pc", (change.2.snapshot.field? "pc").getD .null),
    ("mnemonic", (change.2.snapshot.field? "mnemonic").getD .null),
    ("old_value", .int change.1.value),
    ("new_value", .int change.2.value)]

/-- A cycle lies between two bounds, of which either may be left open. -/
def Within (start stop : Option Int) (cycle : Int) : Prop :=
  (∀ a ∈ start, a ≤ cycle) ∧ ∀ b ∈ stop, cycle ≤ b

instance (start stop : Option Int) (cycle : Int) : Decidable (Within start stop cycle) :=
  inferInstanceAs (Decidable ((∀ a ∈ start, a ≤ cycle) ∧ ∀ b ∈ stop, cycle ≤ b))

/-- A bound as it is given: nothing stands for one that is left open. -/
def boundOf (bound : Option Int) : Datum := (bound.map Datum.int).getD .null

variable {a b : Option Int} {last : Option Reading} {x : Reading} {xs : List Reading}

theorem liesBefore_start (a : Option Int) (n : Int) :
    liesBefore (.int n) (boundOf a) = .ok (decide (¬ ∀ k ∈ a, k ≤ n)) := by
  cases a with
  | none => exact congrArg Except.ok (by simp)
  | some k => exact (less_int n k).trans (congrArg Except.ok (by simp))

theorem liesBefore_stop (b : Option Int) (n : Int) :
    liesBefore (boundOf b) (.int n) = .ok (decide (¬ ∀ k ∈ b, n ≤ k)) := by
  cases b with
  | none => exact congrArg Except.ok (by simp)
  | some k => exact (less_int k n).trans (congrArg Except.ok (by simp))

/-- The next reading may differ from the last one. -/
theorem differences_after (last : Option Reading) (x : Reading) (xs : List Reading) :
    differences (last.toList ++ x :: xs) =
      (last.toList.filter fun l => l.value ≠ x.value).map (·, x) ++ differences (x :: xs) := by
  cases last with
  | none => rfl
  | some l => by_cases same : l.value = x.value <;> simp [differences, same]

/-- What a window shows, if the next reading lies in it and if it does not. -/
theorem within_after (a b : Option Int) (last : Option Reading) (x : Reading) (xs : List Reading) :
    (differences (last.toList ++ x :: xs)).filter (fun change => Within a b change.2.cycle) =
      (if Within a b x.cycle then
        (last.toList.filter fun l => l.value ≠ x.value).map (·, x) else []) ++
      (differences (x :: xs)).filter fun change => Within a b change.2.cycle := by
  rw [differences_after, List.filter_append, List.filter_map]
  split
  · rename_i inside
    exact congrArg (List.map _ · ++ _) (List.filter_eq_self.mpr fun _ _ => decide_eq_true inside)
  · rename_i outside
    exact congrArg (List.map _ · ++ _)
      (List.filter_eq_nil_iff.mpr fun _ _ inside => outside (of_decide_eq_true inside))

/-- A change is told of a reading that is not the last one. -/
theorem mem_differences {p : Reading × Reading} (mem : p ∈ differences (last.toList ++ xs)) :
    p.2 ∈ xs := by
  have later := (List.of_mem_zip (List.mem_filter.mp mem).1).2
  cases last with
  | none => exact List.mem_of_mem_tail later
  | some l => exact later

/-- Where the cycles rise there is nothing in a window that the first of them lies behind. -/
theorem within_eq_nil (rising : (x :: xs).Pairwise fun x x' => x.cycle ≤ x'.cycle)
    (beyond : ¬ ∀ k ∈ b, x.cycle ≤ k) :
    (differences (last.toList ++ x :: xs)).filter (fun change => Within a b change.2.cycle) =
      [] := by
  rw [List.filter_eq_nil_iff]
  intro change mem within
  refine beyond fun k bound => ?_
  have below := (of_decide_eq_true within).2 k bound
  rcases List.mem_cons.mp (mem_differences mem) with same | later
  · rwa [← same]
  · exact Int.le_trans ((List.pairwise_cons.mp rising).1 _ later) below

/-- **The search for changes** finds the differences in its window, those from the last reading
included. -/
theorem changesFrom_eq (a b : Option Int) (last : Option Reading) {history : List Datum}
    (tracked : ∀ s ∈ history, Tracked r s)
    (rising : (readings r history).Pairwise fun x x' => x.cycle ≤ x'.cycle) :
    changesFrom r (boundOf a) (boundOf b) (boundOf (last.map Reading.value)) history =
      .ok (((differences (last.toList ++ readings r history)).filter fun change =>
        Within a b change.2.cycle).map changeOf) := by
  induction history generalizing last with
  | nil =>
    cases last <;> rfl
  | cons s rest ih =>
    rw [List.forall_mem_cons] at tracked
    obtain ⟨registers, has, ⟨absent, unread⟩ | ⟨x, read, present, value, cycle⟩⟩ := tracked.1.cases
    · rw [readings, List.filterMap_cons_none unread] at rising ⊢
      rw [changesFrom, has]
      simp only [absent, bind, Except.bind]
      exact ih last tracked.2 rising
    · rw [readings, List.filterMap_cons_some read] at rising ⊢
      have ih : changesFrom r (boundOf a) (boundOf b) (.int x.value) rest = _ :=
        ih (some x) tracked.2 (List.pairwise_cons.mp rising).2
      rw [changesFrom, has]
      simp only [present, value, cycle, bind, Except.bind, liesBefore_start, liesBefore_stop,
        if_true, decide_eq_true_iff]
      by_cases early : ¬ ∀ k ∈ a, k ≤ x.cycle
      · rw [if_pos early, within_after, if_neg fun inside => early inside.1]
        exact ih
      rw [if_neg early]
      by_cases late : ¬ ∀ k ∈ b, x.cycle ≤ k
      · rw [if_pos late, within_eq_nil rising late]
        rfl
      have inside : Within a b x.cycle := ⟨not_not.mp early, not_not.mp late⟩
      rw [if_neg late, within_after, if_pos inside]
      cases last with
      | none => exact ih
      | some l =>
        have told (name : String) :
            s.getD name .null = .ok ((x.snapshot.field? name).getD .null) := by
          rw [(reading?_eq_some.mp read).2.2]
          exact tracked.1.mapping.getD name .null
        change (if (!(Datum.int x.value).same (.int l.value)) = true then _ else _) = _
        rw [same_int]
        by_cases same : x.value = l.value
        · have unchanged : (some l).toList.filter (fun l => l.value ≠ x.value) = [] := by
            simp [same]
          rw [if_neg (by simp [same]), unchanged]
          exact ih
        · have changed : (some l).toList.filter (fun l => l.value ≠ x.value) = [l] := by
            simp [Ne.symm same]
          rw [if_pos (by simp [same]), changed, told, told]
          dsimp only
          rw [ih]
          rfl

/-! ## Windows -/

/-- A window is the one up to a bound, and then the one beyond it. -/
theorem filter_within_append {α : Type} {xs : List α} {cycle : α → Int}
    (rising : xs.Pairwise fun x y => cycle x ≤ cycle y) {a c : Option Int} {b : Int}
    (low : ∀ k ∈ a, k ≤ b) (high : ∀ k ∈ c, b < k) :
    xs.filter (fun x => Within a c (cycle x)) =
      xs.filter (fun x => Within a (some b) (cycle x)) ++
        xs.filter fun x => Within (some (b + 1)) c (cycle x) := by
  induction xs with
  | nil => rfl
  | cons x xs ih =>
    obtain ⟨first, rising⟩ := List.pairwise_cons.mp rising
    have ih := ih rising
    by_cases early : cycle x ≤ b
    · have same : Within a c (cycle x) ↔ Within a (some b) (cycle x) :=
        and_congr_right fun _ => iff_of_true (fun k bound => by have := high k bound; omega)
          (fun k bound => by cases bound; exact early)
      have not_late : ¬ Within (some (b + 1)) c (cycle x) := fun late => by
        have := late.1 (b + 1) rfl
        omega
      simp only [List.filter_cons, same, not_late, ih, decide_false]
      split <;> rfl
    · have none_early : (x :: xs).filter (fun x => Within a (some b) (cycle x)) = [] := by
        rw [List.filter_eq_nil_iff]
        intro y mem inside
        have below := (of_decide_eq_true inside).2 b rfl
        rcases List.mem_cons.mp mem with rfl | mem
        · exact early below
        · have := first y mem
          omega
      rw [none_early, List.nil_append]
      refine List.filter_congr fun y mem => decide_eq_decide.mpr (and_congr_left fun _ => ?_)
      have beyond : b < cycle y := by
        rcases List.mem_cons.mp mem with rfl | mem
        · omega
        · have := first y mem
          omega
      exact iff_of_true (fun k bound => by have := low k bound; omega)
        (fun k bound => by cases bound; omega)

theorem rising_differences (rising : xs.Pairwise fun x x' => x.cycle ≤ x'.cycle) :
    (differences xs).Pairwise fun change change' => change.2.cycle ≤ change'.2.cycle := by
  have later : (xs.zip xs.tail).map Prod.snd = xs.tail :=
    List.map_snd_zip (by rw [List.length_tail]; exact Nat.sub_le _ 1)
  have zipped : (xs.zip xs.tail).Pairwise fun change change' =>
      change.2.cycle ≤ change'.2.cycle := by
    rw [← List.pairwise_map (f := Prod.snd) (R := fun x x' : Reading => x.cycle ≤ x'.cycle), later]
    exact rising.tail
  exact zipped.filter _

theorem changes_eq {t : Trace} (chronicle : Chronicle r t.history) (a b : Option Int) :
    t.changes r (boundOf a) (boundOf b) =
      .ok (((differences (readings r t.history)).filter fun change =>
        Within a b change.2.cycle).map changeOf) :=
  changesFrom_eq a b none chronicle.tracked chronicle.rising_readings

/-- **Changes are differences.**  Where a register can be followed, its history has the cycles and
values of its readings; its changes are the neighbors among them that differ, in order; a window
shows those of them whose cycles lie in it; and what a window shows is what its parts show, one
after the other, wherever it is cut. -/
theorem changes_are_differences {t : Trace} {r : String} (chronicle : Chronicle r t.history) :
    let xs := readings r t.history
    t.registerHistory r = .ok (xs.map fun x => (.int x.cycle, .int x.value)) ∧
    t.changes r .null .null = .ok ((differences xs).map changeOf) ∧
    (∀ a b : Option Int, t.changes r (boundOf a) (boundOf b) =
      .ok (((differences xs).filter fun change => Within a b change.2.cycle).map changeOf)) ∧
    ∀ (a c : Option Int) (b : Int), (∀ k ∈ a, k ≤ b) → (∀ k ∈ c, b < k) →
      ∃ early late, t.changes r (boundOf a) (.int b) = .ok early ∧
        t.changes r (.int (b + 1)) (boundOf c) = .ok late ∧
        t.changes r (boundOf a) (boundOf c) = .ok (early ++ late) := by
  intro xs
  refine ⟨registerHistory_eq chronicle.tracked, ?_, changes_eq chronicle, ?_⟩
  · have everywhere : (differences xs).filter (fun change => Within none none change.2.cycle) =
        differences xs := List.filter_eq_self.mpr fun _ _ => decide_eq_true ⟨nofun, nofun⟩
    have all := changes_eq chronicle none none
    rwa [everywhere] at all
  · intro a c b low high
    refine ⟨_, _, changes_eq chronicle a (some b), changes_eq chronicle (some (b + 1)) c, ?_⟩
    rw [changes_eq chronicle a c,
      filter_within_append (rising_differences chronicle.rising_readings) low high, List.map_append]

/-- A snapshot with a value in V0. -/
def holding (cycle pc value : Int) : Datum :=
  .record [("cycle", .int cycle), ("pc", .int pc), ("registers", .record [("V0", .int value)])]

/-- A trace in which V0 changes twice, once while it is not recorded. -/
def changing : Trace where
  limit := none
  filter := none
  history := [holding 1 0x200 0, .record [("cycle", .int 3), ("pc", .int 0x202)],
    holding 4 0x204 5, holding 6 0x206 7]

theorem changes_are_differences_changing : Chronicle "V0" changing.history ∧
    (∀ k ∈ some (1 : Int), k ≤ 4) ∧ (∀ k ∈ some (6 : Int), 4 < k) ∧
    changing.changes "V0" (.int 1) (.int 6) =
      .ok [
        .record [("cycle", .int 4), ("pc", .int 0x204), ("mnemonic", .null),
          ("old_value", .int 0), ("new_value", .int 5)],
        .record [("cycle", .int 6), ("pc", .int 0x206), ("mnemonic", .null),
          ("old_value", .int 5), ("new_value", .int 7)]] := by
  have held (cycle pc value : Int) : Tracked "V0" (holding cycle pc value) :=
    ⟨⟨_, rfl⟩, ⟨cycle, rfl⟩, by rintro _ ⟨⟩; exact ⟨_, rfl⟩, by rintro _ ⟨⟩; exact ⟨value, rfl⟩⟩
  have chronicle : Chronicle "V0" changing.history := by
    constructor
    · simp only [changing, List.forall_mem_cons]
      exact ⟨held 1 _ _, ⟨⟨_, rfl⟩, ⟨3, rfl⟩, nofun, nofun⟩, held 4 _ _, held 6 _ _, nofun⟩
    · simp only [changing, List.pairwise_cons, List.forall_mem_cons]
      refine ⟨⟨?_, ?_, ?_, nofun⟩, ⟨?_, ?_, nofun⟩, ⟨?_, nofun⟩, nofun, .nil⟩ <;>
        rintro _ _ ⟨⟩ ⟨⟩ <;> decide
  have low : ∀ k ∈ some (1 : Int), k ≤ 4 := by simp
  have high : ∀ k ∈ some (6 : Int), 4 < k := by simp
  obtain ⟨-, -, window, cut⟩ := changes_are_differences chronicle
  obtain ⟨early, late, shown, shown', all⟩ := cut (some 1) (some 6) 4 low high
  refine ⟨chronicle, low, high, all.trans ?_⟩
  rw [← Except.ok.inj ((window (some 1) (some 4)).symm.trans shown),
    ← Except.ok.inj ((window (some 5) (some 6)).symm.trans shown')]
  rfl

end ChipEight.Trace
