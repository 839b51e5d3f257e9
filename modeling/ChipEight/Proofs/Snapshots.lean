import ChipEight.Proofs.Merging
import ChipEight.Trace.Query
/-! # What a snapshot tells

A snapshot is a mapping, of which any entry may be missing.  Where it is known to be one, questions
to it come down to what it has under a name (`Datum.field?`), and its cycle to an amount
(`Trace.cycle?`). -/

namespace ChipEight

namespace Datum

variable {d value : Datum} {name : String}

/-- A value with entries. -/
def IsMapping (d : Datum) : Prop := ∃ entries, d = .dict entries

theorem IsMapping.contains (mapping : d.IsMapping) (name : String) :
    d.contains name = .ok (d.field? name).isSome := by
  obtain ⟨entries, rfl⟩ := mapping
  rfl

theorem IsMapping.getD (mapping : d.IsMapping) (name : String) (default : Datum) :
    d.getD name default = .ok ((d.field? name).getD default) := by
  obtain ⟨entries, rfl⟩ := mapping
  rfl

/-- What has something under a name gives it. -/
theorem index_of_field? (there : d.field? name = some value) : d.index name = .ok value := by
  cases d with
  | dict entries =>
    rw [field?] at there
    rw [index, there]
  | _ => cases there

theorem same_int (m n : Int) : (int m).same (int n) = decide (m = n) := by
  rw [int, int, same, Bool.eq_iff_iff, decide_eq_true_iff, Number.same, Number.compare?, beq_iff_eq,
    Option.some.injEq, Int.compare_eq_eq]

theorem less_int (m n : Int) : (int m).less (int n) = .ok (decide (m < n)) := by
  have lt : (Number.int m).lt (.int n) = decide (m < n) := by
    rw [Number.lt, Number.compare?, Bool.eq_iff_iff, decide_eq_true_iff, beq_iff_eq,
      Option.some.injEq, Int.compare_eq_lt]
  rw [← lt]
  rfl

theorem distance_int (m n : Int) : (int m).distance (int n) = .ok (int (m - n).natAbs) := rfl

end Datum

namespace Trace

/-- The cycle of a snapshot, if it has one. -/
def cycle? (s : Datum) : Option Number := (s.field? "cycle").bind Datum.amount?

/-- A mapping whose cycle, if it has one, is a whole number. -/
structure Timed (s : Datum) : Prop where
  mapping : s.IsMapping
  whole : ∀ d, s.field? "cycle" = some d → ∃ n : Int, d = .int n

variable {s : Datum}

theorem Timed.cases (timed : Timed s) : s.field? "cycle" = none ∧ cycle? s = none ∨
    ∃ n : Int, s.field? "cycle" = some (.int n) ∧ cycle? s = some (.int n) := by
  rw [cycle?]
  cases there : s.field? "cycle" with
  | none => exact .inl ⟨rfl, rfl⟩
  | some d =>
    obtain ⟨n, rfl⟩ := timed.whole d there
    exact .inr ⟨n, rfl, rfl⟩

end Trace
end ChipEight
