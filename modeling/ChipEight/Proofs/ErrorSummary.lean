import ChipEight.Proofs.ErrorHistory
import Mathlib.Algebra.BigOperators.Group.List.Lemmas
import Mathlib.Algebra.GroupWithZero.Nat
/-! # The summary of errors and the queries agree

The summary of a log counts the records of its history in tables, and a query filters them.  A table
has each of its keys once, with the number of the records that have it (`tallies_countBy`).  So its
counts are the lengths of what the queries find, whatever was reported, whether a category was given
or followed from the error, and whether the callbacks failed or not (`ErrorLog.summary_agrees`). -/

namespace ChipEight

/-! ## Tables of counts -/

section Tables

variable {α β : Type} [DecidableEq β]

/-- How often a key is counted in a table; one that is not there does not occur. -/
def countIn (counts : List (β × Nat)) (k : β) : Nat := (counts.lookup k).getD 0

/-- A table tells the size of each key, has the keys that occur once and no others, and comes to a
total. -/
structure Tallies (counts : List (β × Nat)) (size : β → Nat) (total : Nat) : Prop where
  distinct : (counts.map Prod.fst).Nodup
  occurs : ∀ entry ∈ counts, 0 < entry.2
  each : ∀ k, countIn counts k = size k
  sum : (counts.map Prod.snd).sum = total

theorem nodup_eraseDups (xs : List β) : xs.eraseDups.Nodup := by
  induction n : xs.length using Nat.strong_induction_on generalizing xs with
  | _ n ih =>
    subst n
    cases xs with
    | nil => exact List.nodup_nil
    | cons x xs =>
      have shorter : (xs.filter fun y => !y == x).length < (x :: xs).length :=
        Nat.lt_succ_of_le (List.length_filter_le _ xs)
      rw [List.eraseDups_cons]
      refine List.nodup_cons.mpr ⟨fun again => ?_, ih _ shorter _ rfl⟩
      simp [List.mem_eraseDups] at again

theorem sum_count_eraseDups (xs : List β) :
    (xs.eraseDups.map fun k => xs.count k).sum = xs.length := by
  have dedup : xs.eraseDups.Perm xs.dedup :=
    (List.perm_ext_iff_of_nodup (nodup_eraseDups xs) xs.nodup_dedup).mpr fun k => by
      rw [List.mem_eraseDups, List.mem_dedup]
  rw [(dedup.map _).sum_eq, List.sum_map_count_dedup_eq_length]

/-- A table of all keys that have a size tells it. -/
theorem countIn_map {keys : List β} {size : β → Nat} (others : ∀ k, k ∉ keys → size k = 0) (k : β) :
    countIn (keys.map fun key => (key, size key)) k = size k := by
  by_cases there : k ∈ keys
  · clear others
    induction keys with
    | nil => cases there
    | cons key keys ih =>
      rw [countIn, List.map_cons, List.lookup_cons]
      by_cases same : k = key
      · rw [same, beq_self_eq_true]
        rfl
      · rw [beq_eq_false_iff_ne.mpr same]
        exact ih ((List.mem_cons.mp there).resolve_left same)
  · have absent : (keys.map fun key => (key, size key)).lookup k = none := by
      rw [List.lookup_eq_none_iff]
      intro entry mem
      obtain ⟨key, among, rfl⟩ := List.mem_map.mp mem
      exact bne_iff_ne.mpr fun same => there (same ▸ among)
    rw [countIn, absent, others k there]
    rfl

/-- **A table counts the items by their keys.** -/
theorem tallies_countBy (key : α → Option β) (xs : List α) :
    Tallies (countBy key xs) (fun k => (xs.filter fun x => key x = some k).length)
      (xs.filter fun x => (key x).isSome).length := by
  refine ⟨?_, fun entry mem => ?_, fun k => ?_, ?_⟩
  · have keys : (countBy key xs).map Prod.fst = (xs.filterMap key).eraseDups := by
      rw [countBy, List.map_map]
      exact List.map_id _
    rw [keys]
    exact nodup_eraseDups _
  · obtain ⟨k, there, rfl⟩ := List.mem_map.mp mem
    exact List.count_pos_iff.mpr (List.mem_eraseDups.mp there)
  · rw [countBy, countIn_map fun k absent =>
        List.count_eq_zero.mpr (mt List.mem_eraseDups.mpr absent),
      List.count_filterMap, List.countP_eq_length_filter]
    simp only [beq_eq_decide]
  · rw [countBy, List.map_map, ← List.countP_eq_length_filter, ← List.length_filterMap_eq_countP]
    exact sum_count_eraseDups _

end Tables

namespace ErrorLog

/-! ## What queries find -/

/-- A record is of a level and a category, if these are given. -/
def Fits (level : Option Level) (category : Option Category) (r : ErrorRecord) : Prop :=
  (∀ l ∈ level, r.level = l) ∧ ∀ c ∈ category, r.category = c

instance (level : Option Level) (category : Option Category) (r : ErrorRecord) :
    Decidable (Fits level category r) :=
  inferInstanceAs (Decidable ((∀ l ∈ level, r.level = l) ∧ ∀ c ∈ category, r.category = c))

/-- Without a limit a query finds all records that fit. -/
theorem query_none (log : ErrorLog) (level : Option Level) (category : Option Category) :
    log.query level category none = log.history.filter (Fits level category) := by
  have given {α : Type} [DecidableEq α] (wanted : Option α) (x : α) :
      (wanted.map (· == x)).getD true = decide (∀ w ∈ wanted, x = w) := by
    cases wanted with
    | none => simp
    | some w =>
      rw [Option.map_some, Option.getD_some, beq_eq_decide]
      exact decide_eq_decide.mpr ⟨fun same => by simp [same], fun all => (all w rfl).symm⟩
  refine List.filter_congr fun r _ => ?_
  rw [given, given]
  exact (Bool.decide_and _ _).symm

/-- With a limit a query finds the last of them. -/
theorem query_pos (log : ErrorLog) (level : Option Level) (category : Option Category) {m : Nat}
    (pos : 0 < m) :
    log.query level category (some m) = (log.history.filter (Fits level category)).rtake m := by
  rw [query_some, query_none, limited, if_neg (by omega)]

theorem query_all (log : ErrorLog) : log.query none none none = log.history := by
  rw [query_none, List.filter_eq_self]
  exact fun r _ => decide_eq_true ⟨nofun, nofun⟩

/-! ## What is kept -/

/-- A log that keeps no records, or has a negative limit, has none. -/
structure Use.KeepsNothing (u : Use) : Prop where
  nothing : u.log.keeps = false ∨ u.log.limit < 0
  history : u.log.history = []

namespace Use

variable {u : Use}

theorem KeepsNothing.handle (kept : u.KeepsNothing) (report : Report) :
    (u.returned (u.log.handle u.journal report)).KeepsNothing := by
  obtain ⟨nothing, history⟩ := kept
  have keep : u.log.keep report.toRecord = u.log := by
    rw [ErrorLog.keep]
    split
    · rename_i keeps
      have neg : u.log.limit < 0 := nothing.resolve_left (by rw [keeps]; exact Bool.noConfusion)
      rw [history, List.nil_append, retain_singleton_of_neg neg, ← history]
    · rfl
  rw [returned, ErrorLog.handle]
  dsimp only
  rw [keep]
  exact ⟨nothing, history⟩

/-- **One call.** -/
theorem KeepsNothing.make (kept : u.KeepsNothing) (call : Call) : (u.make call).KeepsNothing := by
  cases call with
  | handle report => exact kept.handle report
  | report incident context => exact kept.handle _
  | warn message category context => exact kept.handle _
  | boundary name module cause category => exact kept.handle _
  | register category callback => exact ⟨kept.nothing, kept.history⟩
  | unregister category => exact ⟨kept.nothing, kept.history⟩
  | clear => exact ⟨kept.nothing, rfl⟩

theorem KeepsNothing.makes (kept : u.KeepsNothing) (calls : List Call) :
    (calls.foldl Use.make u).KeepsNothing := by
  induction calls generalizing u with
  | nil => exact kept
  | cons call calls ih => exact ih (kept.make call)

end Use

/-- **What a log has**: the end of what it has reported since it was cleared, if it keeps any. -/
theorem after_history (limit : Int) (keeps : Bool) (j : Journal) (calls : List Call) :
    let u := after limit keeps j calls
    u.log.history = if keeps = true ∧ 0 ≤ limit then limited limit.toNat u.reported else [] := by
  intro u
  split
  · rename_i some_
    obtain ⟨rfl, nonneg⟩ := some_
    have kept := (after_keeps limit.toNat j calls).history
    rwa [Int.toNat_of_nonneg nonneg] at kept
  · rename_i none_
    have nothing : keeps = false ∨ limit < 0 := by
      cases keeps with
      | false => exact .inl rfl
      | true => exact .inr (by simpa using none_)
    exact (Use.KeepsNothing.makes (u := ⟨create limit keeps, j, []⟩) ⟨nothing, rfl⟩ calls).history

/-! ## What is summed up -/

/-- The summary of a log and its queries tell the same. -/
structure Agrees (log : ErrorLog) : Prop where
  total : log.summary.total = (log.query none none none).length
  byCategory : Tallies log.summary.byCategory (fun c => (log.query none (some c) none).length)
    log.summary.total
  byLevel : Tallies log.summary.byLevel (fun l => (log.query (some l) none none).length)
    log.summary.total
  byCause : Tallies log.summary.byCause
    (fun name => ((log.query none none none).filter fun r =>
      r.cause.map Cause.name = some name).length)
    ((log.query none none none).filter fun r => r.cause.isSome).length
  latest : log.summary.latest = (log.query none none none).getLast?
  limits : ∀ level category (m : Nat), 0 < m → log.query level category (some m) =
    ((log.query none none none).filter (Fits level category)).rtake m

theorem query_category (log : ErrorLog) (c : Category) :
    log.query none (some c) none = log.history.filter fun r => some r.category = some c := by
  rw [query_none]
  exact List.filter_congr fun r _ => decide_eq_decide.mpr (by simp [Fits, eq_comm])

theorem query_level (log : ErrorLog) (l : Level) :
    log.query (some l) none none = log.history.filter fun r => some r.level = some l := by
  rw [query_none]
  exact List.filter_congr fun r _ => decide_eq_decide.mpr (by simp [Fits, eq_comm])

/-- A table in which every record is counted comes to their number. -/
theorem tallies_records {β : Type} [DecidableEq β] (key : ErrorRecord → β) (log : ErrorLog) :
    Tallies (countBy (fun r => some (key r)) log.history)
      (fun k => (log.history.filter fun r => some (key r) = some k).length) log.summary.total := by
  have table := tallies_countBy (fun r => some (key r)) log.history
  simp only [Option.isSome_some, List.filter_true] at table
  exact table

theorem agrees (log : ErrorLog) : log.Agrees where
  total := by rw [query_all]; rfl
  byCategory := by
    simp only [query_category]
    exact tallies_records ErrorRecord.category log
  byLevel := by
    simp only [query_level]
    exact tallies_records ErrorRecord.level log
  byCause := by
    have table := tallies_countBy (fun r : ErrorRecord => r.cause.map Cause.name) log.history
    simp only [Option.isSome_map] at table
    rwa [query_all]
  latest := by rw [query_all]; rfl
  limits level category m pos := by rw [query_all, query_pos log level category pos]

/-- **The summary and the queries tell the same**, of the end of what was reported since the log was
last cleared.  The tables count what a query for a category or a level finds, and the records that
have a cause by its name; a query for so many records gives the last of those that fit. -/
theorem summary_agrees (limit : Int) (keeps : Bool) (j : Journal) (calls : List Call) :
    let u := after limit keeps j calls
    u.log.query none none none =
      (if keeps = true ∧ 0 ≤ limit then limited limit.toNat u.reported else []) ∧
    u.log.Agrees := by
  intro u
  rw [query_all]
  exact ⟨after_history limit keeps j calls, u.log.agrees⟩

/-- Five reports and a log that keeps three of them: a warning, which the log forgets when it is
cleared, a fault, whose callback fails, the same fault under another category, an error of a kind of
the host, and a failure at a boundary. -/
def mixed : List Call :=
  [.warn "low battery" none .null, .clear, .register .stack ⟨"alarm", true⟩,
    .report ⟨.fault (.stackUnderflow none), true⟩ .null,
    .handle { incident := some ⟨.fault (.stackUnderflow none), true⟩, category := some .input },
    .handle { incident := some ⟨.foreign { name := "OSError" } "disk full" [], false⟩ },
    .boundary "open" "host" (.fault (.stackUnderflow none)) none]

theorem summary_agrees_mixed :
    let u := after 3 true {} mixed
    0 < 1 ∧ u.log.summary.total = 3 ∧
    u.log.summary.byCategory = [(.input, 1), (.unknown, 1), (.stack, 1)] ∧
    u.log.summary.byCause = [("StackUnderflow", 2), ("OSError", 1)] ∧
    (u.log.query (some .error) none (some 1)).map (·.message) =
      ["Error in open: Return with empty call stack"] := by
  intro u
  have one : 0 < 1 := by decide
  obtain ⟨-, agrees⟩ := summary_agrees 3 true {} mixed
  refine ⟨one, by decide, by decide, by decide, ?_⟩
  refine (congrArg (List.map ErrorRecord.message) (agrees.limits (some .error) none 1 one)).trans ?_
  decide

end ErrorLog
end ChipEight
