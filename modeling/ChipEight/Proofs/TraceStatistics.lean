import ChipEight.Proofs.Retention
import ChipEight.Proofs.Snapshots
import Mathlib.Algebra.Group.Int.Defs
/-! # What a trace keeps, and what it counts

A trace keeps the last snapshots with the registers that its filter admits, and counts over all that
were recorded since it was cleared, whether it still has them or not (`Trace.Remembers`).  So its
statistics tell of that whole past: how many there were, from which cycle to which, and with which
registers.  They can be told as long as a float can hold the cycles between
(`Trace.statistics_tell_past`); beyond that there is no rate, and with it no statistics. -/

namespace ChipEight

namespace Datum

variable {name : String} {value : Datum} {entries : List (Datum × Datum)}

/-- Changes the value under a name, wherever it stands. -/
def mapAt (name : String) (g : Datum → Datum) (entries : List (Datum × Datum)) :
    List (Datum × Datum) :=
  entries.map fun entry => (entry.1, if entry.1.sameKey (.text name) then g entry.2 else entry.2)

theorem mapAt_cons (name : String) (g : Datum → Datum) (key value : Datum)
    (rest : List (Datum × Datum)) : mapAt name g ((key, value) :: rest) =
      (key, if key.sameKey (.text name) then g value else value) :: mapAt name g rest := rfl

theorem lookup_mapAt (name name' : String) (g : Datum → Datum) (entries : List (Datum × Datum)) :
    lookup (.text name') (mapAt name g entries) =
      (lookup (.text name') entries).map fun value => if name' = name then g value else value := by
  induction entries with
  | nil => rfl
  | cons entry rest ih =>
    obtain ⟨key, value⟩ := entry
    rw [mapAt_cons, lookup, lookup]
    split
    · rename_i there
      obtain rfl := sameKey_text.mp there
      simp [sameKey_text]
    · exact ih

theorem mapAt_of_absent {g : Datum → Datum} (absent : lookup (.text name) entries = none) :
    mapAt name g entries = entries := by
  induction entries with
  | nil => rfl
  | cons entry rest ih =>
    obtain ⟨key, value⟩ := entry
    rw [lookup] at absent
    split at absent
    · cases absent
    · rename_i other
      rw [mapAt_cons, if_neg other, ih absent]

/-- Where each key stands once, to put a changed value is to change it at its place. -/
theorem insert_eq_mapAt {g : Datum → Datum} (distinct : Distinct entries)
    (there : lookup (.text name) entries = some value) :
    insert (.text name) (g value) entries = mapAt name g entries := by
  induction entries with
  | nil => cases there
  | cons entry rest ih =>
    obtain ⟨key, v⟩ := entry
    obtain ⟨once, distinct⟩ := List.pairwise_cons.mp distinct
    rw [lookup] at there
    rw [insert, mapAt_cons]
    split at there
    · rename_i named
      cases there
      have absent : lookup (.text name) rest = none := lookup_eq_none fun entry mem same => by
        have other := once entry mem
        rw [sameKey_text.mp named, same, text_sameKey.mpr rfl] at other
        cases other
      rw [if_pos named, if_pos named, mapAt_of_absent absent]
    · rename_i other
      rw [if_neg other, if_neg other, ih distinct there]

end Datum

namespace Trace

open Datum

/-! ## Snapshots and filters -/

/-- A mapping whose cycle, if it has one, is an amount, and whose registers, if it has any, have
names. -/
structure IsSnapshot (s : Datum) : Prop where
  mapping : ∃ entries, s = .dict entries ∧ Distinct entries
  cycle : ∀ d, s.field? "cycle" = some d → ∃ n, d.amount? = some n
  registers : ∀ d, s.field? "registers" = some d → ∃ named, d = .record named

/-- Whether a name is one of those. -/
def isNamed (names : List String) : Datum → Bool
  | .text name => names.contains name
  | _ => false

/-- The registers that have one of the names. -/
def registersNamed (names : List String) : Datum → Datum
  | .dict registers => .dict (registers.filter fun (name, _) => isNamed names name)
  | d => d

/-- A snapshot with the registers that a filter admits, and all else as it was. -/
def admitted : Option (List String) → Datum → Datum
  | some names, .dict entries => .dict (mapAt "registers" (registersNamed names) entries)
  | _, s => s

/-- The names of a snapshot's registers. -/
def registerNames (s : Datum) : List String :=
  match s.field? "registers" with
  | some (.dict registers) => registers.filterMap fun
    | (.text name, _) => some name
    | _ => none
  | _ => []

variable {s : Datum} {filter : Option (List String)} {names : List String}

theorem isNamed_eq (names : List String) (name : Datum) :
    (names.any fun n => name.same (.text n)) = isNamed names name := by
  cases name with
  | text name =>
    rw [isNamed, List.contains_eq_any_beq]
    rfl
  | null | bool _ | number _ | list _ | dict _ =>
    exact List.any_eq_false.mpr fun _ _ => by simp [same]

/-- **A mapping is kept as the filter admits it.** -/
theorem restrict_mapping {entries : List (Datum × Datum)} (distinct : Distinct entries)
    (registers : ∀ d, lookup (.text "registers") entries = some d → d.IsMapping)
    (filter : Option (List String)) :
    restrict filter (.dict entries) = .ok (admitted filter (.dict entries)) := by
  cases filter with
  | none => rfl
  | some names =>
    rw [restrict, admitted, contains]
    cases there : lookup (.text "registers") entries with
    | none =>
      rw [mapAt_of_absent there]
      rfl
    | some d =>
      obtain ⟨named, rfl⟩ := registers d there
      rw [← insert_eq_mapAt distinct there]
      simp only [bind, Except.bind, Option.isSome_some, if_true, toEntries, there, Option.getD_some,
        isNamed_eq, registersNamed]
      rfl

theorem restrict_admits (snapshot : IsSnapshot s) (filter : Option (List String)) :
    restrict filter s = .ok (admitted filter s) := by
  obtain ⟨⟨entries, rfl, distinct⟩, -, registers⟩ := snapshot
  refine restrict_mapping distinct (fun d there => ?_) filter
  obtain ⟨named, rfl⟩ := registers d there
  exact ⟨_, rfl⟩

theorem field?_admitted (filter : Option (List String)) (s : Datum) {name : String}
    (other : name ≠ "registers") : (admitted filter s).field? name = s.field? name := by
  cases filter with
  | none => rfl
  | some names =>
    cases s with
    | dict entries =>
      rw [admitted, field?, lookup_mapAt]
      simp [other, field?]
    | _ => rfl

/-- A filter takes no cycle away. -/
theorem filterMap_admitted (filter : Option (List String)) (past : List Datum) :
    (past.map (admitted filter)).filterMap cycle? = past.filterMap cycle? := by
  rw [List.filterMap_map]
  refine List.filterMap_congr fun s _ => ?_
  rw [Function.comp_apply, cycle?, field?_admitted filter s (by decide), cycle?]

theorem mapping_admitted (mapping : s.IsMapping) (filter : Option (List String)) :
    (admitted filter s).IsMapping := by
  obtain ⟨entries, rfl⟩ := mapping
  cases filter with
  | none => exact ⟨entries, rfl⟩
  | some names => exact ⟨_, rfl⟩

/-- What is kept of the registers has names. -/
theorem IsSnapshot.registers_admitted (snapshot : IsSnapshot s) (filter : Option (List String)) :
    ∀ d, (admitted filter s).field? "registers" = some d → ∃ named, d = .record named := by
  obtain ⟨⟨entries, rfl, -⟩, -, registers⟩ := snapshot
  cases filter with
  | none => exact registers
  | some names =>
    intro d there
    rw [admitted, field?, lookup_mapAt, Option.map_eq_some_iff] at there
    obtain ⟨all, was, rfl⟩ := there
    obtain ⟨named, rfl⟩ := registers all was
    refine ⟨named.filter fun entry => isNamed names (.text entry.1), ?_⟩
    rw [if_pos rfl, record, registersNamed, record, List.filter_map]
    rfl

theorem registerNames_record {named : List (String × Datum)}
    (there : s.field? "registers" = some (.record named)) :
    registerNames s = named.map Prod.fst := by
  rw [registerNames, there]
  change (named.map _).filterMap _ = _
  rw [List.filterMap_map, ← List.filterMap_eq_map]
  rfl

/-! ## One snapshot more -/

/-- A value is an amount, if there is one, and else nothing. -/
def Stands (d : Datum) : Option Number → Prop
  | none => d = .null
  | some n => d.amount? = some n

/-- The first cycle and the last one, after a snapshot was looked at. -/
theorem noteCycle_eq {t : Trace} {past : List Datum} (mapping : s.IsMapping)
    (cycle : ∀ d, s.field? "cycle" = some d → ∃ n, d.amount? = some n)
    (start : Stands t.startCycle (past.filterMap cycle?).head?)
    (current : Stands t.currentCycle (past.filterMap cycle?).getLast?) :
    ∃ first last, t.noteCycle s = .ok { t with startCycle := first, currentCycle := last } ∧
      Stands first ((past ++ [s]).filterMap cycle?).head? ∧
      Stands last ((past ++ [s]).filterMap cycle?).getLast? := by
  rw [noteCycle, mapping.contains, List.filterMap_append]
  cases there : s.field? "cycle" with
  | none =>
    have untimed : [s].filterMap cycle? = [] :=
      List.filterMap_cons_none (by rw [cycle?, there, Option.bind_none])
    rw [untimed, List.append_nil]
    exact ⟨_, _, rfl, start, current⟩
  | some d =>
    obtain ⟨n, amount⟩ := cycle d there
    have timed : [s].filterMap cycle? = [n] :=
      List.filterMap_cons_some (by rw [cycle?, there, Option.bind_some, amount])
    rw [timed]
    simp only [bind, Except.bind, Option.isSome_some, if_true, index_of_field? there]
    refine ⟨_, d, rfl, ?_, ?_⟩
    · cases cycles : past.filterMap cycle? with
      | nil =>
        rw [cycles] at start
        rw [show t.startCycle = .null from start]
        exact amount
      | cons m cycles' =>
        rw [cycles] at start
        rw [List.cons_append, List.head?_cons]
        have known : t.startCycle.amount? = some m := start
        split
        · rename_i null_
          rw [null_] at known
          cases known
        · exact known
    · rw [List.getLast?_append_of_ne_nil _ (List.cons_ne_nil n [])]
      exact amount

/-- Names that are merged stand there once. -/
theorem mergeNames_once {old : List String} (once : old.Nodup) (more : List String) :
    ∃ names : List String, mergeNames (old.map .text) (more.map .text) = names.map .text ∧
      names.Nodup ∧ ∀ n, n ∈ names ↔ n ∈ old ∨ n ∈ more := by
  induction more generalizing old with
  | nil => exact ⟨old, rfl, once, fun n => by simp⟩
  | cons name more ih =>
    have known : (old.map Datum.text).any (·.same (.text name)) = true ↔ name ∈ old := by
      simp [same]
    rw [List.map_cons, mergeNames, List.foldl_cons]
    split
    · rename_i there
      obtain ⟨names, merged, once', among⟩ := ih once
      refine ⟨names, merged, once', fun n => ?_⟩
      rw [among, List.mem_cons]
      have here := known.mp there
      constructor
      · rintro (was | later)
        · exact .inl was
        · exact .inr (.inr later)
      · rintro (was | rfl | later)
        · exact .inl was
        · exact .inl here
        · exact .inr later
    · rename_i new
      have once' : (old ++ [name]).Nodup :=
        List.nodup_append.mpr ⟨once, List.pairwise_singleton _ name, fun a was b here => by
          rw [List.mem_singleton.mp here]
          exact fun same => new (known.mpr (same ▸ was))⟩
      obtain ⟨names, merged, once'', among⟩ := ih once'
      rw [List.map_append, List.map_singleton] at merged
      refine ⟨names, merged, once'', fun n => ?_⟩
      rw [among, List.mem_append, List.mem_singleton, List.mem_cons, or_assoc]

theorem noteNames_eq (mapping : s.IsMapping)
    (registers : ∀ d, s.field? "registers" = some d → ∃ named, d = .record named) (t : Trace) :
    t.noteNames s = .ok { t with names := mergeNames t.names ((registerNames s).map .text) } := by
  rw [noteNames, mapping.contains]
  cases there : s.field? "registers" with
  | none =>
    rw [registerNames, there]
    rfl
  | some d =>
    obtain ⟨named, rfl⟩ := registers d there
    rw [registerNames_record there]
    simp only [bind, Except.bind, Option.isSome_some, if_true, index_of_field? there]
    rw [record]
    dsimp only
    rw [List.map_map, List.map_map]
    rfl

/-- What a trace has of a past: the end of it, and the counts of all of it. -/
structure Remembers (limit : Nat) (filter : Option (List String)) (past : List Datum)
    (t : Trace) : Prop where
  bound : t.limit = some limit
  filters : t.filter = filter
  history : t.history = past.rtake limit
  total : t.total = past.length
  start : Stands t.startCycle (past.filterMap cycle?).head?
  current : Stands t.currentCycle (past.filterMap cycle?).getLast?
  names : ∃ names : List String, t.names = names.map .text ∧ names.Nodup ∧
    ∀ n, n ∈ names ↔ ∃ s ∈ past, n ∈ registerNames s

variable {limit : Nat} {past : List Datum} {t : Trace}

/-- **One snapshot more** is recorded, whatever it lacks. -/
theorem Remembers.add (remembers : t.Remembers limit filter past) (snapshot : IsSnapshot s) :
    ∃ t', t.add s = (t', .ok ()) ∧ t'.Remembers limit filter (past ++ [admitted filter s]) := by
  obtain ⟨bound, rfl, history, total, start, current, names, known, once, among⟩ := remembers
  have mapping : (admitted t.filter s).IsMapping := by
    obtain ⟨entries, rfl, -⟩ := snapshot.mapping
    exact mapping_admitted ⟨entries, rfl⟩ t.filter
  have timed : ∀ d, (admitted t.filter s).field? "cycle" = some d → ∃ n, d.amount? = some n := by
    rw [field?_admitted t.filter s (by decide)]
    exact snapshot.cycle
  obtain ⟨first, last, cycled, start', current'⟩ :=
    noteCycle_eq (t := { t with total := t.total + 1 }) mapping timed start current
  have named := noteNames_eq mapping (snapshot.registers_admitted t.filter)
    { t with total := t.total + 1, startCycle := first, currentCycle := last }
  obtain ⟨names', merged, once', among'⟩ :=
    mergeNames_once once (registerNames (admitted t.filter s))
  rw [Trace.add, restrict_admits snapshot t.filter]
  simp only [cycled, named]
  refine ⟨_, rfl, bound, rfl, ?_, ?_, start', current', names', ?_, once', fun n => ?_⟩
  · rw [bound, history]
    exact rtake_rtake_append past _ limit
  · rw [total, List.length_append, List.length_singleton]
  · rw [known]
    exact merged
  · rw [among', among]
    simp [or_and_right, exists_or]

/-! ## Calls -/

/-- What a host asks of a trace that it records. -/
inductive Call where
  | record (snapshot : Datum)
  | clear

/-- The trace after a call, if that can be done. -/
def make (t : Trace) : Call → Except Failure Trace
  | .record s =>
    match t.add s with
    | (t, .ok ()) => .ok t
    | (_, .error e) => .error e
  | .clear => .ok t.clear

/-- What a call adds to what has been recorded, or takes from it. -/
def Call.extend (recorded : List Datum) : Call → List Datum
  | .record s => recorded ++ [s]
  | .clear => []

/-- What has been recorded since the last call that cleared. -/
def recordedBy (calls : List Call) : List Datum := calls.foldl Call.extend []

theorem remembers_nothing (bound : t.limit = some limit) (history : t.history = [])
    (total : t.total = 0) (start : t.startCycle = .null) (current : t.currentCycle = .null)
    (names : t.names = []) : t.Remembers limit t.filter [] where
  bound := bound
  filters := rfl
  history := history.trans (List.rtake_nil limit).symm
  total := total
  start := start
  current := current
  names := ⟨[], names, List.nodup_nil, fun n => by simp⟩

theorem Remembers.makes {calls : List Call}
    (remembers : t.Remembers limit filter (past.map (admitted filter)))
    (snapshots : ∀ s, Call.record s ∈ calls → IsSnapshot s) :
    ∃ t', calls.foldlM make t = .ok t' ∧
      t'.Remembers limit filter ((calls.foldl Call.extend past).map (admitted filter)) := by
  induction calls generalizing t past with
  | nil => exact ⟨t, rfl, remembers⟩
  | cons call calls ih =>
    have later : ∀ s, Call.record s ∈ calls → IsSnapshot s := fun s mem =>
      snapshots s (List.mem_cons_of_mem _ mem)
    rw [List.foldlM_cons, List.foldl_cons]
    cases call with
    | record s =>
      obtain ⟨t', added, remembers'⟩ := remembers.add (snapshots s List.mem_cons_self)
      rw [← List.map_singleton, ← List.map_append] at remembers'
      obtain ⟨t'', made, remembers''⟩ := ih remembers' later
      refine ⟨t'', ?_, remembers''⟩
      rw [make, added]
      exact made
    | clear =>
      have cleared : t.clear.Remembers limit filter (([] : List Datum).map (admitted filter)) := by
        obtain ⟨bound, rfl, -⟩ := remembers
        exact remembers_nothing (t := t.clear) bound rfl rfl rfl rfl rfl
      exact ih cleared later

/-! ## Statistics -/

/-- The cycles from the first one to the last, if they need no rate or a float can hold them. -/
def covered? (elapsed : Number) (cycles : List Number) : Option Number :=
  match cycles.head?, cycles.getLast? with
  | some first, some last =>
    (last.sub? first).filter fun n => !Number.lt (.int 0) elapsed || n.toFloat?.isSome
  | _, _ => some (.int 0)

theorem cyclesCovered_eq {cycles : List Number} (start : Stands t.startCycle cycles.head?)
    (current : Stands t.currentCycle cycles.getLast?) (elapsed : Number) :
    t.cyclesCovered elapsed = match covered? elapsed cycles with
      | some n => .ok (.number n)
      | none => .error .beyondRange := by
  cases cycles with
  | nil =>
    rw [cyclesCovered, show t.startCycle = .null from start]
    rfl
  | cons first rest =>
    obtain ⟨last, ends⟩ : ∃ last, (first :: rest).getLast? = some last :=
      ⟨_, List.getLast?_eq_some_getLast (List.cons_ne_nil first rest)⟩
    rw [ends] at current
    rw [covered?, ends, List.head?_cons]
    dsimp only
    have started : t.startCycle.amount? = some first := start
    have stopped : t.currentCycle.amount? = some last := current
    have asked : t.cyclesCovered elapsed = (do
        let covered ← t.currentCycle.difference t.startCycle
        if Number.lt (.int 0) elapsed && (covered.amount?.bind Number.toFloat?).isNone then
          throw .beyondRange
        return covered) := by
      rw [cyclesCovered]
      split
      · rename_i null_
        rw [null_] at started
        cases started
      · rename_i null_ _
        rw [null_] at stopped
        cases stopped
      · rfl
    rw [asked, difference, stopped, started]
    cases between : last.sub? first with
    | none => simp only [between]; rfl
    | some n =>
      simp only [between]
      rw [Option.filter_some]
      change (if Number.lt (.int 0) elapsed && n.toFloat?.isNone then
        Except.error Failure.beyondRange else Except.ok (Datum.number n)) = _
      cases Number.lt (.int 0) elapsed <;> cases n.toFloat? <;> rfl

/-- Names are sorted, each of them once. -/
theorem sortNames_once {names : List String} (once : names.Nodup) :
    ∃ sorted : List String, sortNames (names.map .text) = .ok (sorted.map .text) ∧
      sorted.Pairwise (· < ·) ∧ ∀ n, n ∈ sorted ↔ n ∈ names := by
  have texts : (names.map Datum.text).all (fun d => d matches .text _) = true := by
    rw [List.all_map, List.all_eq_true]
    exact fun _ _ => rfl
  have sorts : sortNames (names.map .text) =
      .ok ((names.map Datum.text).mergeSort fun a b => !((b.less a).toOption.getD false)) := by
    refine if_pos ?_
    rw [Bool.or_eq_true, Bool.or_eq_true]
    exact .inl (.inr texts)
  have order : ∀ a ∈ names, ∀ b ∈ names, (!decide (b < a)) =
      !(((Datum.text b).less (.text a)).toOption.getD false) := fun _ _ _ _ => rfl
  refine ⟨names.mergeSort fun a b => !decide (b < a), ?_, ?_, fun n => List.mem_mergeSort⟩
  · exact sorts.trans (congrArg Except.ok (List.map_mergeSort order).symm)
  · have le {a b : String} : (!decide (b < a)) = true ↔ a ≤ b := by
      rw [Bool.not_eq_true', decide_eq_false_iff_not, String.not_lt]
    have rising : (names.mergeSort fun a b => !decide (b < a)).Pairwise fun a b =>
        (!decide (b < a)) = true := by
      refine List.pairwise_mergeSort (fun a b c below above => ?_) (fun a b => ?_) names
      · exact le.mpr (String.le_trans (le.mp below) (le.mp above))
      · rw [Bool.or_eq_true, le, le]
        exact String.le_total a b
    have once' := (List.mergeSort_perm names fun a b => !decide (b < a)).nodup_iff.mpr once
    refine (rising.and once').imp fun {a b} ⟨below, other⟩ => String.not_le.mp fun above => ?_
    exact other (String.le_antisymm (le.mp below) above)

/-- A trace is made with any bound that a word can hold. -/
theorem create_remembers {bound : Int} (nonneg : 0 ≤ bound) (fits : bound < Number.wordLimit)
    (filter : Option (List String)) :
    ∃ new, create (some bound) filter = .ok new ∧ new.Remembers bound.toNat filter [] := by
  have within : ¬(decide (bound < -Number.wordLimit) || decide (Number.wordLimit ≤ bound)) := by
    rw [Bool.or_eq_true, decide_eq_true_iff, decide_eq_true_iff]
    rw [Number.wordLimit] at *
    omega
  refine ⟨{ limit := some bound.toNat, filter }, ?_, ?_⟩
  · rw [create, if_neg within, if_neg (Int.not_lt.mpr nonneg)]
  · exact remembers_nothing (t := { limit := some bound.toNat, filter }) rfl rfl rfl rfl rfl rfl

/-- **What has been recorded, and what is told of it**: whatever was recorded and cleared, the
history is the end of what was recorded since, as the filter admits it.  The statistics are of all
of it, if no time has passed or a float can hold its cycles, and else there are none. -/
theorem statistics_tell_past {bound : Int} (nonneg : 0 ≤ bound) (fits : bound < Number.wordLimit)
    (filter : Option (List String)) {calls : List Call}
    (snapshots : ∀ s, Call.record s ∈ calls → IsSnapshot s) (elapsed : Number) :
    ∃ new t, create (some bound) filter = .ok new ∧ calls.foldlM make new = .ok t ∧
      let past := (recordedBy calls).map (admitted filter)
      t.history = past.rtake bound.toNat ∧
      ∃ names : List String, names.Pairwise (· < ·) ∧
        (∀ n, n ∈ names ↔ ∃ s ∈ past, n ∈ registerNames s) ∧
        t.statistics elapsed = match covered? elapsed ((recordedBy calls).filterMap cycle?) with
          | some cycles => .ok
            { total := past.length
              cycles := .number cycles
              size := t.history.length
              limit := some bound.toNat
              names := names.map .text }
          | none => .error .beyondRange := by
  obtain ⟨new, created, empty⟩ := create_remembers nonneg fits filter
  obtain ⟨t, made, bounded, -, history, total, start, current, names, known, once, among⟩ :=
    Remembers.makes (show new.Remembers _ _ ([].map (admitted filter)) from empty) snapshots
  obtain ⟨sorted, sorts, rising, perm⟩ := sortNames_once once
  refine ⟨new, t, created, made, history, sorted, rising, fun n => (perm n).trans (among n), ?_⟩
  have counted : t.cyclesCovered elapsed =
      match covered? elapsed ((recordedBy calls).filterMap cycle?) with
        | some n => .ok (.number n)
        | none => .error .beyondRange := by
    rw [filterMap_admitted] at start current
    exact cyclesCovered_eq start current elapsed
  rw [statistics, counted, known, sorts, total, bounded]
  cases covered? elapsed ((recordedBy calls).filterMap cycle?) with
  | some cycles => rfl
  | none => rfl

/-- A snapshot of a cycle with the values of registers. -/
def snapshotWith (cycle : Int) (registers : List (String × Datum)) : Datum :=
  .record [("cycle", .int cycle), ("registers", .record registers)]

theorem isSnapshot_snapshotWith (cycle : Int) (registers : List (String × Datum)) :
    IsSnapshot (snapshotWith cycle registers) where
  mapping := ⟨_, rfl, List.pairwise_pair.mpr rfl⟩
  cycle := by rintro _ ⟨⟩; exact ⟨_, rfl⟩
  registers := by rintro _ ⟨⟩; exact ⟨_, rfl⟩

/-- Calls that clear once, and then record a snapshot without a cycle between two others. -/
def clearing : List Call :=
  [.record (snapshotWith 1 [("V0", .int 4)]),
    .clear,
    .record (snapshotWith 3 [("V0", .int 1), ("V1", .int 2)]),
    .record (.record [("pc", .int 0x202)]),
    .record (snapshotWith 8 [("V1", .int 5), ("V0", .int 7)])]

theorem statistics_tell_past_clearing : (0 : Int) ≤ 1 ∧ 1 < Number.wordLimit ∧
    (∀ s, Call.record s ∈ clearing → IsSnapshot s) ∧
    ∃ new t, create (some 1) (some ["V0"]) = .ok new ∧ clearing.foldlM make new = .ok t ∧
      t.history = [snapshotWith 8 [("V0", .int 7)]] ∧
      t.statistics (.int 1) = .ok
        { total := 3, cycles := .int 5, size := 1, limit := some 1, names := [.text "V0"] } := by
  have snapshots : ∀ s, Call.record s ∈ clearing → IsSnapshot s := by
    intro s mem
    simp only [clearing, List.mem_cons, Call.record.injEq, reduceCtorEq, false_or,
      List.not_mem_nil, or_false] at mem
    obtain rfl | rfl | rfl | rfl := mem
    · exact isSnapshot_snapshotWith 1 _
    · exact isSnapshot_snapshotWith 3 _
    · exact ⟨⟨_, rfl, List.pairwise_singleton _ _⟩, nofun, nofun⟩
    · exact isSnapshot_snapshotWith 8 _
  obtain ⟨new, t, created, made, history, names, rising, among, told⟩ :=
    statistics_tell_past (Int.zero_le_ofNat 1) (by decide) (some ["V0"]) snapshots (.int 1)
  have past : (recordedBy clearing).map (admitted (some ["V0"])) =
      [snapshotWith 3 [("V0", .int 1)], .record [("pc", .int 0x202)],
        snapshotWith 8 [("V0", .int 7)]] := rfl
  rw [past] at history among told
  have only : ∀ n, n ∈ names ↔ n = "V0" := fun n => by
    have unnamed : registerNames (.record [("pc", .int 0x202)]) = [] := rfl
    have named (cycle value : Int) :
        registerNames (snapshotWith cycle [("V0", .int value)]) = ["V0"] := rfl
    rw [among]
    simp [unnamed, named]
  have single : names = ["V0"] := by
    match names, rising, only with
    | [], _, only => exact absurd ((only "V0").mpr rfl) List.not_mem_nil
    | [n], _, only => rw [(only n).mp List.mem_cons_self]
    | n :: n' :: _, rising, only =>
      have less := (List.pairwise_cons.mp rising).1 n' List.mem_cons_self
      rw [(only n).mp (by simp), (only n').mp (by simp)] at less
      exact absurd less (String.lt_irrefl _)
  have covered : covered? (.int 1) ((recordedBy clearing).filterMap cycle?) = some (.int 5) := by
    have held : (Number.toFloat? (.int 5)).isSome = true := by decide +kernel
    change (some (Number.int 5)).filter (fun n => n.toFloat?.isSome) = _
    rw [Option.filter_some, if_pos held]
  rw [covered, single, history] at told
  exact ⟨by decide, by decide, snapshots, new, t, created, made, history, told⟩

/-- A trace that recorded a cycle after cycle zero. -/
def spanning (cycle : Int) : Trace where
  limit := some 10
  filter := none
  history := [.record [("cycle", .int 0)], .record [("cycle", .int cycle)]]
  total := 2
  startCycle := .int 0
  currentCycle := .int cycle

theorem spanning_made (cycle : Int) :
    ∃ new, create (some 10) none = .ok new ∧
      [Call.record (.record [("cycle", .int 0)]),
        Call.record (.record [("cycle", .int cycle)])].foldlM make new = .ok (spanning cycle) :=
  ⟨_, rfl, rfl⟩

theorem statistics_spanning {cycle : Int} (beyond : Number.floatOfInt? cycle = none) :
    (spanning cycle).statistics (.int 1) = .error .beyondRange := by
  have lost : covered? (.int 1) [.int 0, .int cycle] = none := by
    change (some (Number.int (cycle - 0))).filter (fun n => n.toFloat?.isSome) = _
    rw [Option.filter_some, Int.sub_zero, Number.toFloat?, beyond]
    rfl
  have counted : (spanning cycle).cyclesCovered (.int 1) =
      match covered? (.int 1) [.int 0, .int cycle] with
        | some n => .ok (.number n)
        | none => .error .beyondRange := by
    have start : Stands (spanning cycle).startCycle [Number.int 0, .int cycle].head? := rfl
    have current : Stands (spanning cycle).currentCycle [Number.int 0, .int cycle].getLast? := rfl
    exact cyclesCovered_eq start current (.int 1)
  rw [statistics, counted, lost]
  rfl

/-- The statistics of two snapshots are lost as soon as some time has passed, if there are more cycles
between them than a float can hold. -/
theorem statistics_lost :
    ∃ new t, create (some 10) none = .ok new ∧
      [Call.record (.record [("cycle", .int 0)]),
        Call.record (.record [("cycle", .int ((10 ^ 103) ^ 3))])].foldlM make new = .ok t ∧
      t.total = 2 ∧ t.startCycle = .int 0 ∧ t.currentCycle = .int ((10 ^ 103) ^ 3) ∧
      t.statistics (.int 1) = .error .beyondRange := by
  obtain ⟨new, created, made⟩ := spanning_made ((10 ^ 103) ^ 3)
  have beyond : Number.floatOfInt? ((10 ^ 103) ^ 3) = none := by decide +kernel
  exact ⟨new, _, created, made, rfl, rfl, rfl, statistics_spanning beyond⟩

end Trace
end ChipEight
