import ChipEight.Proofs.Snapshots
/-! # The snapshot nearest to a cycle

A question for a cycle goes through the history once, with the best snapshot so far, and stops at
the cycle itself.  What it has found at any point is the first of those that lie nearest to the
cycle (`Trace.Seen`), so in the end it is the first of all (`Trace.nearest_is_first`), however the
cycles are ordered and wherever the exact one stands. -/

namespace ChipEight.Trace

open Datum

variable {c m n : Int} {s b : Datum} {past rest : List Datum} {best : Option Datum}

/-- A snapshot is the first of those in a history whose cycles lie nearest to a cycle. -/
def FirstNearest (c : Int) (history : List Datum) (s : Datum) : Prop :=
  ∃ before n after, history = before ++ s :: after ∧ cycle? s = some (.int n) ∧
    (∀ s' ∈ before, ∀ n' : Int, cycle? s' = some (.int n') → (n - c).natAbs < (n' - c).natAbs) ∧
    ∀ s' ∈ after, ∀ n' : Int, cycle? s' = some (.int n') → (n - c).natAbs ≤ (n' - c).natAbs

/-- Of two that lie nearest to a cycle, neither stands before the other. -/
theorem not_before {before after before' after' : List Datum} {s' : Datum} {n' : Int}
    (cycle : cycle? s = some (.int n)) (cycle' : cycle? s' = some (.int n'))
    (weak : ∀ x ∈ after, ∀ k : Int, cycle? x = some (.int k) → (n - c).natAbs ≤ (k - c).natAbs)
    (strict : ∀ x ∈ before', ∀ k : Int, cycle? x = some (.int k) → (n' - c).natAbs < (k - c).natAbs)
    (same : ∃ between, before' = before ++ between ∧ s :: after = between ++ s' :: after') :
    s = s' := by
  obtain ⟨between, rfl, same⟩ := same
  cases between with
  | nil => exact (List.cons.inj same).1
  | cons x between =>
    obtain ⟨rfl, rfl⟩ := List.cons.inj same
    have nearer := strict s (by simp) n cycle
    have farther := weak s' (by simp) n' cycle'
    omega

/-- There is only one first of the nearest ones. -/
theorem FirstNearest.unique {s' : Datum} (first : FirstNearest c past s)
    (first' : FirstNearest c past s') : s = s' := by
  obtain ⟨before, n, after, rfl, cycle, strict, weak⟩ := first
  obtain ⟨before', n', after', same, cycle', strict', weak'⟩ := first'
  rcases List.append_eq_append_iff.mp same with between | between
  · exact not_before cycle cycle' weak strict' between
  · exact (not_before cycle' cycle weak' strict between).symm

theorem FirstNearest.mem (first : FirstNearest c past s) : s ∈ past := by
  obtain ⟨before, n, after, rfl, -⟩ := first
  simp

/-- What lies nearest has a cycle. -/
theorem FirstNearest.timed (first : FirstNearest c past s) (timed : ∀ s ∈ past, Timed s) :
    ∃ n : Int, s.field? "cycle" = some (.int n) ∧ cycle? s = some (.int n) := by
  have here := timed s first.mem
  obtain ⟨before, n, after, rfl, cycle, -⟩ := first
  rcases here.cases with ⟨-, untimed⟩ | there
  · rw [untimed] at cycle
    cases cycle
  · exact there

/-- The first of a cycle lies nearest to it, whatever follows. -/
theorem first_of_exact (cycle : cycle? s = some (.int c))
    (inexact : ∀ s' ∈ past, cycle? s' ≠ some (.int c)) (rest : List Datum) :
    FirstNearest c (past ++ s :: rest) s := by
  refine ⟨past, c, rest, rfl, cycle, fun s' mem n' cycle' => ?_, fun s' _ n' _ => by simp⟩
  have other : n' ≠ c := fun same => inexact s' mem (same ▸ cycle')
  omega

/-- What a question has in hand, once it has seen a part of the history without the cycle itself. -/
structure Seen (c : Int) (past : List Datum) (best : Option Datum) : Prop where
  inexact : ∀ s ∈ past, cycle? s ≠ some (.int c)
  nobody : best = none → ∀ s ∈ past, cycle? s = none
  first : ∀ s ∈ best, FirstNearest c past s

theorem seen_nothing (c : Int) : Seen c [] none :=
  ⟨nofun, fun _ => nofun, nofun⟩

/-! ## One snapshot more -/

/-- What lies no nearer than the best so far leaves it the best. -/
theorem FirstNearest.farther (first : FirstNearest c past b) (best : cycle? b = some (.int m))
    (farther : ∀ n : Int, cycle? s = some (.int n) → (m - c).natAbs ≤ (n - c).natAbs) :
    FirstNearest c (past ++ [s]) b := by
  obtain ⟨before, m', after, rfl, best', strict, weak⟩ := first
  obtain rfl : m = m' := by
    rw [best] at best'
    cases best'
    rfl
  refine ⟨before, m, after ++ [s], by simp, best, strict, fun s' mem n cycle => ?_⟩
  rcases List.mem_append.mp mem with mem | mem
  · exact weak s' mem n cycle
  · obtain rfl := List.mem_singleton.mp mem
    exact farther n cycle

/-- What lies nearer than the best so far is the best from now on. -/
theorem FirstNearest.nearer (first : FirstNearest c past b) (best : cycle? b = some (.int m))
    (cycle : cycle? s = some (.int n)) (nearer : (n - c).natAbs < (m - c).natAbs) :
    FirstNearest c (past ++ [s]) s := by
  obtain ⟨before, m', after, rfl, best', strict, weak⟩ := first
  obtain rfl : m = m' := by
    rw [best] at best'
    cases best'
    rfl
  refine ⟨before ++ b :: after, n, [], rfl, cycle, fun s' mem n' cycle' => ?_, nofun⟩
  rcases List.mem_append.mp mem with mem | mem
  · exact Nat.lt_trans nearer (strict s' mem n' cycle')
  · rcases List.mem_cons.mp mem with rfl | mem
    · rw [best] at cycle'
      cases cycle'
      exact nearer
    · exact Nat.lt_of_lt_of_le nearer (weak s' mem n' cycle')

/-- A snapshot without a cycle is passed over. -/
theorem Seen.skip (seen : Seen c past best) (untimed : cycle? s = none) :
    Seen c (past ++ [s]) best := by
  refine ⟨?_, fun none_ => ?_, fun b among => ?_⟩
  · rw [List.forall_mem_append, List.forall_mem_singleton, untimed]
    exact ⟨seen.inexact, nofun⟩
  · rw [List.forall_mem_append, List.forall_mem_singleton]
    exact ⟨seen.nobody none_, untimed⟩
  · obtain ⟨_, _, _, _, cycle, _⟩ := seen.first b among
    refine (seen.first b among).farther cycle fun n' cycle' => ?_
    rw [untimed] at cycle'
    cases cycle'

/-- One of another cycle is compared with the best so far. -/
theorem Seen.compare (seen : Seen c past best) (cycle : cycle? s = some (.int n)) (other : n ≠ c)
    (better : FirstNearest c (past ++ [s]) b) : Seen c (past ++ [s]) (some b) := by
  refine ⟨?_, nofun, fun b' among => ?_⟩
  · rw [List.forall_mem_append, List.forall_mem_singleton, cycle]
    exact ⟨seen.inexact, fun same => other (by cases same; rfl)⟩
  · cases among
    exact better

/-- The first that has a cycle is the best. -/
theorem Seen.begin (seen : Seen c past none) (cycle : cycle? s = some (.int n)) :
    FirstNearest c (past ++ [s]) s := by
  refine ⟨past, n, [], rfl, cycle, fun s' mem n' cycle' => ?_, nofun⟩
  rw [seen.nobody rfl s' mem] at cycle'
  cases cycle'

/-! ## The whole history -/

/-- What a question answers for a history: the snapshot, and whether it is of the cycle itself. -/
structure Answered (c : Int) (history : List Datum) (found : Option Datum) (itself : Bool) :
    Prop where
  nobody : found = none ↔ ∀ s ∈ history, cycle? s = none
  first : ∀ s ∈ found, FirstNearest c history s
  itself : itself = true ↔ ∃ s ∈ history, cycle? s = some (.int c)

/-- A history without the cycle itself is gone through to the end. -/
theorem Seen.answered (seen : Seen c past best) : Answered c past best false := by
  refine ⟨⟨seen.nobody, fun untimed => ?_⟩, seen.first, iff_of_false Bool.noConfusion ?_⟩
  · cases best with
    | none => rfl
    | some b =>
      obtain ⟨before, n, after, rfl, cycle, -⟩ := seen.first b rfl
      rw [untimed b (by simp)] at cycle
      cases cycle
  · rintro ⟨s, mem, itself⟩
    exact seen.inexact s mem itself

/-- At the cycle itself the question has its answer. -/
theorem Seen.itself (seen : Seen c past best) (cycle : cycle? s = some (.int c))
    (rest : List Datum) : Answered c (past ++ s :: rest) (some s) true := by
  have mem : s ∈ past ++ s :: rest := by simp
  refine ⟨iff_of_false nofun fun untimed => ?_, fun s' among => ?_, iff_of_true rfl ⟨s, mem, cycle⟩⟩
  · rw [untimed s mem] at cycle
    cases cycle
  · cases among
    exact first_of_exact cycle seen.inexact rest

/-- **The rest of a history.** -/
theorem nearestFrom_answers (seen : Seen c past best) (timed : ∀ s ∈ past ++ rest, Timed s) :
    ∃ found itself, nearestFrom (.int c) best rest = .ok (found, itself) ∧
      Answered c (past ++ rest) found itself := by
  induction rest generalizing past best with
  | nil => exact ⟨best, false, rfl, by rw [List.append_nil]; exact seen.answered⟩
  | cons s rest ih =>
    have here : Timed s := timed s (by simp)
    have onward : past ++ s :: rest = past ++ [s] ++ rest := by simp
    rw [nearestFrom, here.mapping.contains]
    rcases here.cases with ⟨absent, untimed⟩ | ⟨n, there, cycle⟩
    · rw [absent, onward]
      exact ih (seen.skip untimed) (onward ▸ timed)
    rw [there, Option.isSome_some]
    simp only [bind, Except.bind, index_of_field? there, same_int, if_true, decide_eq_true_iff]
    by_cases itself : n = c
    · rw [if_pos itself]
      exact ⟨some s, true, rfl, seen.itself (itself ▸ cycle) rest⟩
    · rw [if_neg itself, onward]
      cases best with
      | none => exact ih (seen.compare cycle itself (seen.begin cycle)) (onward ▸ timed)
      | some b =>
        have first := seen.first b rfl
        obtain ⟨m, there_b, cycle_b⟩ := first.timed fun s mem => timed s (by simp [mem])
        simp only [index_of_field? there_b, distance_int, less_int, decide_eq_true_iff,
          Int.ofNat_lt]
        split
        · rename_i nearer
          exact ih (seen.compare cycle itself (first.nearer cycle_b cycle nearer)) (onward ▸ timed)
        · rename_i farther
          have kept := first.farther cycle_b (s := s) fun n' cycle' => by
            rw [cycle] at cycle'
            cases cycle'
            omega
          exact ih (seen.compare cycle itself kept) (onward ▸ timed)

/-- **A question for a cycle finds the first of the nearest snapshots.**  For every trace whose
cycles are whole numbers, in any order and with gaps, the answer is the first snapshot of those that
lie nearest to the cycle; it is the first of that very cycle if there is one, and there is no answer
only where no snapshot has a cycle. -/
theorem nearest_is_first {t : Trace} (timed : ∀ s ∈ t.history, Timed s) (c : Int) :
    ∃ found itself, t.nearest (.int c) = .ok (found, itself) ∧
      (∀ s, found = some s ↔ FirstNearest c t.history s) ∧
      (found = none ↔ ∀ s ∈ t.history, cycle? s = none) ∧
      (itself = true ↔ ∃ s ∈ t.history, cycle? s = some (.int c)) ∧
      ∀ before s after, t.history = before ++ s :: after → cycle? s = some (.int c) →
        (∀ s' ∈ before, cycle? s' ≠ some (.int c)) → found = some s := by
  obtain ⟨found, itself, nearest, answered⟩ := nearestFrom_answers (seen_nothing c) timed
  have first (s : Datum) : found = some s ↔ FirstNearest c t.history s := by
    refine ⟨answered.first s, fun first => ?_⟩
    cases found with
    | none =>
      obtain ⟨n, -, cycle⟩ := first.timed timed
      rw [answered.nobody.mp rfl s first.mem] at cycle
      cases cycle
    | some s' => rw [(answered.first s' rfl).unique first]
  refine ⟨found, itself, nearest, first, answered.nobody, answered.itself, ?_⟩
  intro before s after split cycle inexact
  exact (first s).mpr (split ▸ first_of_exact cycle inexact after)

/-- A snapshot of a cycle at an address. -/
def snapshotAt (cycle pc : Int) : Datum := .record [("cycle", .int cycle), ("pc", .int pc)]

/-- A trace that begins in the middle of a run, has a snapshot without a cycle, and starts to count
again after a reset. -/
def restarted : Trace where
  limit := none
  filter := none
  history := [snapshotAt 7 0x204, .record [("pc", .int 0x206)], snapshotAt 3 0x200,
    snapshotAt 7 0x208]

theorem nearest_is_first_restarted : (∀ s ∈ restarted.history, Timed s) ∧
    restarted.nearest (.int 5) = .ok (some (snapshotAt 7 0x204), false) := by
  have timed : ∀ s ∈ restarted.history, Timed s := by
    simp only [restarted, List.forall_mem_cons]
    exact ⟨⟨⟨_, rfl⟩, by rintro _ ⟨⟩; exact ⟨7, rfl⟩⟩, ⟨⟨_, rfl⟩, nofun⟩,
      ⟨⟨_, rfl⟩, by rintro _ ⟨⟩; exact ⟨3, rfl⟩⟩, ⟨⟨_, rfl⟩, by rintro _ ⟨⟩; exact ⟨7, rfl⟩⟩, nofun⟩
  obtain ⟨found, itself, nearest, first, -, exact_, -⟩ := nearest_is_first timed 5
  have nearest_ : FirstNearest 5 restarted.history (snapshotAt 7 0x204) := by
    refine ⟨[], 7, _, rfl, rfl, nofun, ?_⟩
    simp only [List.forall_mem_cons]
    exact ⟨nofun, by rintro _ ⟨⟩; decide, by rintro _ ⟨⟩; decide, nofun⟩
  have others : ∀ s ∈ restarted.history, cycle? s ≠ some (.int 5) := by
    simp only [restarted, List.forall_mem_cons]
    exact ⟨nofun, nofun, nofun, nofun, nofun⟩
  have inexact : itself = false := Bool.eq_false_iff.mpr fun yes => by
    obtain ⟨s, mem, cycle⟩ := exact_.mp yes
    exact others s mem cycle
  refine ⟨timed, nearest.trans ?_⟩
  rw [(first _).mpr nearest_, inexact]

end ChipEight.Trace
