import ChipEight.ErrorLog
import ChipEight.Proofs.Retention
/-! # The history of errors

A log of errors keeps the last records that were reported since it was cleared, as many as its limit
says, and a query returns the last of those that it finds, as many as are asked for.  Both hold from
the limit one on (`ErrorLog.history_bounded_iff`).  The limit zero does not make a history without
records but one without a limit, and to ask for no more than zero records is to ask for all. -/

namespace ChipEight

namespace ErrorLog

/-! ## Calls -/

/-- What a host asks of a log of errors. -/
inductive Call where
  | handle (report : Report)
  | report (incident : Incident) (context : Datum)
  | warn (message : String) (category : Option Category) (context : Datum)
  | boundary (name module : String) (cause : Cause) (category : Option Category)
  | register (category : Category) (callback : Callback)
  | unregister (category : Category)
  | clear

/-- A log in use, with the records that it has returned since it was last cleared. -/
structure Use where
  log : ErrorLog
  journal : Journal
  reported : List ErrorRecord

namespace Use

/-- The log has returned a record. -/
def returned (u : Use) (result : ErrorLog × Journal × ErrorRecord) : Use :=
  ⟨result.1, result.2.1, u.reported ++ [result.2.2]⟩

def make (u : Use) : Call → Use
  | .handle report => u.returned (u.log.handle u.journal report)
  | .report incident context => u.returned (u.log.report u.journal incident context)
  | .warn message category context =>
    u.returned (u.log.warn u.journal message category context)
  | .boundary name module cause category =>
    u.returned (u.log.reportBoundary u.journal name module cause category)
  | .register category callback =>
    { u with
      log := u.log.register category callback
      journal := u.journal.addAll (registerNotes category) }
  | .unregister category =>
    { u with
      log := (u.log.unregister category).1
      journal := u.journal.addAll (unregisterNotes category (u.log.unregister category).2) }
  | .clear => ⟨u.log.clear, u.journal.addAll clearNotes, []⟩

end Use

/-- A new log, after calls. -/
def after (limit : Int) (keeps : Bool) (j : Journal) (calls : List Call) : Use :=
  calls.foldl Use.make ⟨create limit keeps, j, []⟩

/-! ## What is kept -/

/-- What a limit leaves of a list of records: the last ones, unless it is zero. -/
def limited (limit : Nat) (records : List ErrorRecord) : List ErrorRecord :=
  if limit = 0 then records else records.rtake limit

theorem limited_nil (limit : Nat) : limited limit [] = [] := by
  rw [limited, List.rtake_nil, ite_self]

theorem retain_eq_limited (limit : Nat) (records : List ErrorRecord) :
    retain limit records = limited limit records := by
  rw [limited]
  split
  · rename_i zero
    rw [zero]
    exact retain_zero records
  · exact retain_of_pos (by omega) records

theorem retain_limited_concat (limit : Nat) (records : List ErrorRecord) (r : ErrorRecord) :
    retain limit (limited limit records ++ [r]) = limited limit (records ++ [r]) := by
  rw [retain_eq_limited]
  by_cases zero : limit = 0
  · rw [limited, limited, limited, if_pos zero, if_pos zero, if_pos zero]
  · rw [limited, limited, limited, if_neg zero, if_neg zero, if_neg zero, rtake_rtake_append]

theorem length_limited_le_iff (limit : Nat) (records : List ErrorRecord) :
    (limited limit records).length ≤ limit ↔ 0 < limit ∨ records = [] := by
  rw [limited]
  split
  · rename_i zero
    rw [zero, Nat.le_zero, List.length_eq_zero_iff]
    exact (or_iff_right (Nat.lt_irrefl 0)).symm
  · rename_i some_
    rw [length_rtake]
    exact iff_of_true (Nat.min_le_left _ _) (.inl (by omega))

/-- The history of the log is the limited list of what it has reported. -/
structure Use.Keeps (limit : Nat) (u : Use) : Prop where
  keeps : u.log.keeps = true
  bound : u.log.limit = limit
  history : u.log.history = limited limit u.reported

namespace Use

variable {limit : Nat} {u : Use}

theorem Keeps.handle (kept : u.Keeps limit) (report : Report) :
    (u.returned (u.log.handle u.journal report)).Keeps limit := by
  obtain ⟨keeps, bound, history⟩ := kept
  have log : (u.returned (u.log.handle u.journal report)).log =
      { u.log with history := retain limit (u.log.history ++ [report.toRecord]) } := by
    rw [returned, ErrorLog.handle, keep, if_pos keeps, ← bound]
  refine ⟨by rw [log]; exact keeps, by rw [log]; exact bound, ?_⟩
  rw [log, history, retain_limited_concat]
  rfl

/-- **One call.** -/
theorem Keeps.make (kept : u.Keeps limit) (call : Call) : (u.make call).Keeps limit := by
  cases call with
  | handle report => exact kept.handle report
  | report incident context => exact kept.handle _
  | warn message category context => exact kept.handle _
  | boundary name module cause category => exact kept.handle _
  | register category callback => exact ⟨kept.keeps, kept.bound, kept.history⟩
  | unregister category => exact ⟨kept.keeps, kept.bound, kept.history⟩
  | clear => exact ⟨kept.keeps, kept.bound, (limited_nil limit).symm⟩

theorem Keeps.makes (kept : u.Keeps limit) (calls : List Call) :
    (calls.foldl Use.make u).Keeps limit := by
  induction calls generalizing u with
  | nil => exact kept
  | cons call calls ih => exact ih (kept.make call)

end Use

theorem after_keeps (limit : Nat) (j : Journal) (calls : List Call) :
    (after limit true j calls).Keeps limit :=
  Use.Keeps.makes ⟨rfl, rfl, (limited_nil limit).symm⟩ calls

theorem query_some (log : ErrorLog) (level : Option Level) (category : Option Category) (m : Nat) :
    log.query level category (some m) = limited m (log.query level category none) := by
  rw [query, query]
  split
  · rename_i zero
    rw [limited, if_pos (by simpa using zero)]
  · rw [retain_eq_limited]

/-- **Where the bounds hold.**  From the limit one on, the history of a log that keeps records is the
end of what it has reported since it was cleared, and a query returns the end of what it finds.  The
limit zero keeps and returns everything, and so it is exceeded as soon as there is a record. -/
theorem history_bounded_iff (limit : Nat) (j : Journal) (calls : List Call) :
    let u := after limit true j calls
    u.log.history = limited limit u.reported ∧
    (u.log.history.length ≤ limit ↔ 0 < limit ∨ u.reported = []) ∧
    ∀ level category (m : Nat),
      let found := u.log.query level category none
      let returned := u.log.query level category (some m)
      returned = limited m found ∧
      (returned.length ≤ m ↔ 0 < m ∨ found = []) := by
  intro u
  have history : u.log.history = limited limit u.reported := (after_keeps limit j calls).history
  refine ⟨history, ?_, fun level category m => ?_⟩
  · rw [history]
    exact length_limited_le_iff limit u.reported
  · dsimp only
    rw [query_some]
    exact ⟨rfl, length_limited_le_iff m _⟩

theorem history_unbounded :
    let unlimited := after 0 true {} [.warn "low battery" none .null]
    let limited := after 100 true {} [.warn "low battery" none .null]
    unlimited.log.history ≠ unlimited.reported.rtake 0 ∧ ¬ unlimited.log.history.length ≤ 0 ∧
    ¬ (limited.log.query none none (some 0)).length ≤ 0 := by
  refine ⟨fun none_ => ?_, by decide, by decide⟩
  exact absurd (congrArg List.length none_) (by decide)

end ErrorLog
end ChipEight
