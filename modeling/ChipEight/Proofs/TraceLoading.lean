import ChipEight.Proofs.Askable
import ChipEight.Proofs.DeepMerge
import ChipEight.Proofs.ProperReading
import ChipEight.Proofs.TraceStatistics
import ChipEight.Trace.Storage
/-! # What a load leaves of a trace

A trace records what it can look into (`Trace.Recordable`) and refuses the rest (`Trace.add_cases`),
so a list of snapshots is recorded up to the first that is refused (`Trace.Retains.addAll`).  A load
clears the trace before it looks at what the file gives, and then records that.  So it is all or
nothing only for files that give nothing to refuse: any other file costs the trace its history, and
leaves it with a part of another (`Trace.load_atomic_iff`). -/

namespace ChipEight

namespace Datum

variable {name : String} {d key value : Datum} {entries : List (Datum × Datum)}

instance : DecidablePred IsMapping
  | .dict entries => .isTrue ⟨entries, rfl⟩
  | .null | .bool _ | .number _ | .text _ | .list _ => .isFalse nofun

theorem KeyedEntries.insert (keyed : KeyedEntries entries) (isKey : key.isKey = true)
    (own : value.Keyed) : KeyedEntries (insert key value entries) := by
  induction entries with
  | nil => exact ⟨isKey, own, trivial⟩
  | cons first rest ih =>
    obtain ⟨k, v⟩ := first
    obtain ⟨first, there, later⟩ := keyed
    rw [Datum.insert]
    split
    · exact ⟨first, own, later⟩
    · exact ⟨first, there, ih later⟩

theorem keyed_ofEntries (each : ∀ entry ∈ entries, entry.1.isKey = true ∧ entry.2.Keyed) :
    (dict (ofEntries entries)).Keyed := by
  have done : KeyedEntries [] := trivial
  rw [Keyed, ofEntries]
  generalize ([] : List (Datum × Datum)) = gathered at done ⊢
  induction entries generalizing gathered with
  | nil => exact done
  | cons first rest ih =>
    rw [List.forall_mem_cons] at each
    exact ih each.2 _ (done.insert each.1.1 each.1.2)

theorem KeyedEntries.lookup (keyed : KeyedEntries entries)
    (there : lookup key entries = some value) : value.Keyed := by
  induction entries with
  | nil => cases there
  | cons first rest ih =>
    obtain ⟨k, v⟩ := first
    obtain ⟨-, own, keyed⟩ := keyed
    rw [Datum.lookup] at there
    split at there
    · cases there
      exact own
    · exact ih keyed there

theorem proper_of_isKey (isKey : d.isKey = true) : d.Proper := by
  cases d with
  | list _ | dict _ => cases isKey
  | null | bool _ | number _ | text _ => trivial

/-- A proper value goes over proper items. -/
theorem proper_items {items : List Datum} (proper : d.Proper) (keyed : d.Keyed)
    (listed : d.items = .ok items) : ∀ s ∈ items, s.Proper := by
  cases d with
  | null | bool _ | number _ => cases listed
  | list xs =>
    cases listed
    exact properItems_iff.mp proper
  | text name =>
    cases listed
    intro s mem
    obtain ⟨c, -, rfl⟩ := List.mem_map.mp mem
    trivial
  | dict entries =>
    cases listed
    intro s mem
    obtain ⟨⟨key, value⟩, there, rfl⟩ := List.mem_map.mp mem
    exact proper_of_isKey (KeyedEntries.of_mem keyed there)

/-- Whoever looks for a name finds nothing, or a value under it; or there is no looking for it, or
nothing to read where it occurs. -/
theorem look_cases (d : Datum) (name : String) :
    (d.Answers name ∧ d.contains name = .ok false ∧ d.field? name = none) ∨
    (∃ value, d.Answers name ∧ d.contains name = .ok true ∧ d.index name = .ok value ∧
      d.field? name = some value) ∨
    (¬ d.Answers name ∧ d.contains name = .error .wrongKind) ∨
    (¬ d.Answers name ∧ d.contains name = .ok true ∧ d.index name = .error .wrongKind) := by
  rcases d.contains_cases name with ⟨entries, rfl⟩ | ⟨failed, no⟩ | ⟨there, unread, no⟩ |
    ⟨absent, yes⟩
  · rw [contains, index, field?]
    cases lookup (.text name) entries with
    | none => exact .inl ⟨trivial, rfl, rfl⟩
    | some value => exact .inr (.inl ⟨value, trivial, rfl, rfl, rfl⟩)
  · exact .inr (.inr (.inl ⟨no, failed⟩))
  · exact .inr (.inr (.inr ⟨no, there, unread⟩))
  · refine .inl ⟨yes, absent, ?_⟩
    cases d with
    | dict entries =>
      rw [contains, Except.ok.injEq] at absent
      exact Option.isNone_iff_eq_none.mp (Option.isSome_eq_false_iff.mp absent)
    | _ => rfl

theorem mapping_of_field? (there : d.field? name = some value) : d.IsMapping := by
  cases d with
  | dict entries => exact ⟨entries, rfl⟩
  | _ => cases there

/-- A list in which a name stands is no list of pairs, unless the name is one. -/
theorem pairsOf_error {items : List Datum} (mem : text name ∈ items) (long : name.length ≠ 2)
    (position : Nat) : ∃ e, pairsOf position items = .error e := by
  induction items generalizing position with
  | nil => cases mem
  | cons item rest ih =>
    rw [pairsOf]
    rcases List.mem_cons.mp mem with rfl | later
    · simp only [items, bind, Except.bind]
      split
      · rename_i two
        have both := congrArg List.length two
        rw [List.length_map, String.length_toList] at both
        exact absurd both long
      · exact ⟨_, rfl⟩
    · obtain ⟨e, failed⟩ := ih later (position + 1)
      cases item.items with
      | error e => exact ⟨e, rfl⟩
      | ok parts =>
        simp only [failed, bind, Except.bind]
        split
        · split <;> exact ⟨_, rfl⟩
        · exact ⟨_, rfl⟩

/-- What contains a name, and is no mapping, cannot be made one. -/
theorem toEntries_error (there : d.contains name = .ok true) (long : 2 < name.length)
    (unmapped : ¬ d.IsMapping) : ∃ e, d.toEntries = .error e := by
  have failing (items : List Datum) (listed : d.items = .ok items)
      (bad : ∃ e, pairsOf 0 items = .error e) : ∃ e, d.toEntries = .error e := by
    obtain ⟨e, failed⟩ := bad
    refine ⟨e, ?_⟩
    rw [toEntries.eq_def]
    split
    · exact absurd ⟨_, rfl⟩ unmapped
    · simp only [listed, failed, bind, Except.bind]
  cases d with
  | dict entries => exact absurd ⟨entries, rfl⟩ unmapped
  | null | bool _ | number _ => cases there
  | list items =>
    rw [contains, Except.ok.injEq, List.any_eq_true] at there
    obtain ⟨item, mem, same_⟩ := there
    exact failing items rfl (pairsOf_error (same_text.mp same_ ▸ mem) (by omega) 0)
  | text s =>
    rw [contains, Except.ok.injEq, occurs_iff] at there
    have longer := there.length_le
    cases chars : s.toList with
    | nil =>
      rw [chars, String.length_toList, List.length_nil] at longer
      omega
    | cons c rest =>
      refine failing _ rfl ⟨.badValue (.pairLength 0 1), ?_⟩
      have single : (text (String.singleton c)).items = .ok [text (String.singleton c)] := by
        rw [items, String.toList_singleton]
        rfl
      rw [chars, List.map_cons, pairsOf, single]
      rfl

end Datum

open Datum

theorem Json.read_keyed (text : String) : Reads (Json.read text) Datum.Keyed := by
  refine read_each ?_ (fun _ => trivial) (fun _ => trivial) (fun _ _ => trivial) ?_ text
  · simp only [words, List.forall_mem_cons]
    exact ⟨trivial, trivial, trivial, trivial, trivial, trivial, nofun⟩
  · intro entries each
    refine keyed_ofEntries fun entry mem => ?_
    obtain ⟨⟨name, named⟩, keyed⟩ := each entry mem
    exact ⟨named ▸ rfl, keyed⟩

namespace Trace

variable {t t' : Trace} {s s' : Datum} {filter : Option (List String)} {states : List Datum}

/-! ## One snapshot -/

/-- What a trace can record: a mapping, with a mapping for its registers if it has any, or a list or
a text in which nothing occurs that the trace looks for. -/
def Recordable (s : Datum) : Prop :=
  s.Answers "cycle" ∧ s.Answers "registers" ∧ ∀ d ∈ s.field? "registers", d.IsMapping

instance : DecidablePred Recordable := fun s =>
  inferInstanceAs (Decidable (_ ∧ _ ∧ ∀ d ∈ s.field? "registers", d.IsMapping))

theorem recordable_mapping {entries : List (Datum × Datum)} : Recordable (.dict entries) ↔
    ∀ d, lookup (.text "registers") entries = some d → d.IsMapping :=
  ⟨fun recordable => recordable.2.2, fun mappings => ⟨trivial, trivial, mappings⟩⟩

theorem noteCycle_cases (t : Trace) (s : Datum) :
    (s.Answers "cycle" ∧ ∃ start current,
      t.noteCycle s = .ok { t with startCycle := start, currentCycle := current }) ∨
    (¬ s.Answers "cycle" ∧ ∃ e, t.noteCycle s = .error e) := by
  rw [noteCycle]
  rcases s.look_cases "cycle" with ⟨yes, absent, -⟩ | ⟨cycle, yes, there, read, -⟩ | ⟨no, failed⟩ |
    ⟨no, there, unread⟩
  · rw [absent]
    exact .inl ⟨yes, t.startCycle, t.currentCycle, rfl⟩
  · rw [there, read]
    exact .inl ⟨yes, _, cycle, rfl⟩
  · rw [failed]
    exact .inr ⟨no, _, rfl⟩
  · rw [there, unread]
    exact .inr ⟨no, _, rfl⟩

theorem noteNames_cases (t : Trace) (s : Datum) :
    (s.Answers "registers" ∧ (∀ d ∈ s.field? "registers", d.IsMapping) ∧
      ∃ names, t.noteNames s = .ok { t with names }) ∨
    (¬ (s.Answers "registers" ∧ ∀ d ∈ s.field? "registers", d.IsMapping) ∧
      ∃ e, t.noteNames s = .error e) := by
  rw [noteNames]
  rcases s.look_cases "registers" with ⟨yes, absent, none_⟩ | ⟨d, yes, there, read, some_⟩ |
    ⟨no, failed⟩ | ⟨no, there, unread⟩
  · rw [absent, none_]
    exact .inl ⟨yes, fun d among => absurd among (Option.not_mem_none d), t.names, rfl⟩
  · rw [there, read, some_]
    cases d with
    | dict registers =>
      exact .inl ⟨yes, fun _ same => Option.some.inj same ▸ ⟨registers, rfl⟩, _, rfl⟩
    | null | bool _ | number _ | text _ | list _ =>
      refine .inr ⟨fun both => ?_, _, rfl⟩
      obtain ⟨_, impossible⟩ := both.2 _ rfl
      cases impossible
  · rw [failed]
    exact .inr ⟨fun both => no both.1, _, rfl⟩
  · rw [there, unread]
    exact .inr ⟨fun both => no both.1, _, rfl⟩

/-- A filter makes something recordable of what is recordable, and of nothing else. -/
theorem restrict_cases (filter : Option (List String)) (s : Datum) :
    (∃ s', restrict filter s = .ok s' ∧ (Recordable s' ↔ Recordable s)) ∨
    (¬ Recordable s ∧ ∃ e, restrict filter s = .error e) := by
  cases filter with
  | none => exact .inl ⟨s, rfl, Iff.rfl⟩
  | some names =>
    have whole (absent : s.contains "registers" = .ok false) :
        restrict (some names) s = .ok s := by
      rw [restrict, absent]
      rfl
    rcases s.look_cases "registers" with ⟨-, absent, -⟩ | ⟨d, -, there, -, some_⟩ | ⟨no, failed⟩ |
      ⟨no, there, unread⟩
    · exact .inl ⟨s, whole absent, Iff.rfl⟩
    · obtain ⟨entries, rfl⟩ := mapping_of_field? some_
      rw [field?] at some_
      rw [restrict, there]
      simp only [bind, Except.bind, if_true, toEntries, some_, Option.getD_some]
      cases d with
      | dict registers =>
        refine .inl ⟨_, rfl, iff_of_true ?_ ?_⟩
        · refine recordable_mapping.mpr fun d there => ?_
          rw [lookup_insert_self rfl] at there
          exact Option.some.inj there ▸ ⟨_, rfl⟩
        · exact recordable_mapping.mpr fun d there =>
            Option.some.inj (some_.symm.trans there) ▸ ⟨_, rfl⟩
      | null | bool _ | number _ | text _ | list _ =>
        refine .inr ⟨fun recordable => ?_, _, rfl⟩
        obtain ⟨_, impossible⟩ := recordable.2.2 _ some_
        cases impossible
    · rw [restrict, failed]
      exact .inr ⟨fun recordable => no recordable.2.1, _, rfl⟩
    · have unmapped : ¬ s.IsMapping := by
        rintro ⟨entries, rfl⟩
        exact no trivial
      obtain ⟨e, broken⟩ := toEntries_error there (by decide) unmapped
      rw [restrict, there]
      simp only [bind, Except.bind, if_true, broken]
      exact .inr ⟨fun recordable => no recordable.2.1, e, rfl⟩

/-- What can be recorded is kept as the filter admits it. -/
theorem restrict_recordable (proper : s.Proper) (recordable : Recordable s)
    (filter : Option (List String)) : restrict filter s = .ok (admitted filter s) := by
  by_cases mapping : s.IsMapping
  · obtain ⟨entries, rfl⟩ := mapping
    exact restrict_mapping proper.1 (recordable_mapping.mp recordable) filter
  · cases filter with
    | none => rfl
    | some names =>
      have whole : admitted (some names) s = s := by
        cases s with
        | dict entries => exact absurd ⟨entries, rfl⟩ mapping
        | _ => rfl
      rcases s.look_cases "registers" with ⟨-, absent, -⟩ | ⟨d, -, -, -, some_⟩ | ⟨no, -⟩ | ⟨no, -⟩
      · rw [restrict, absent, whole]
        rfl
      · exact absurd (mapping_of_field? some_) mapping
      · exact absurd recordable.2.1 no
      · exact absurd recordable.2.1 no

/-- A trace with one snapshot more, in the form in which it is kept. -/
structure Recorded (t : Trace) (kept : Datum) (t' : Trace) : Prop where
  limit : t'.limit = t.limit
  filter : t'.filter = t.filter
  history : t'.history = keepLast t.limit (t.history ++ [kept])
  total : t'.total = t.total + 1

/-- A trace that could not take a snapshot: at most it has counted it. -/
structure Refused (t t' : Trace) : Prop where
  limit : t'.limit = t.limit
  filter : t'.filter = t.filter
  history : t'.history = t.history
  total : t'.total = t.total ∨ t'.total = t.total + 1

/-- **One snapshot** is recorded if it can be, and refused if not. -/
theorem add_cases (t : Trace) (s : Datum) :
    (Recordable s ∧ ∃ kept t', restrict t.filter s = .ok kept ∧ Recordable kept ∧
      t.add s = (t', .ok ()) ∧ Recorded t kept t') ∨
    (¬ Recordable s ∧ ∃ t' e, t.add s = (t', .error e) ∧ Refused t t') := by
  rw [add]
  rcases restrict_cases t.filter s with ⟨kept, restricted, same⟩ | ⟨no, e, failed⟩
  · rw [restricted]
    dsimp only
    rcases noteCycle_cases { t with total := t.total + 1 } kept with
      ⟨timed, start, current, noted⟩ | ⟨no, e, failed⟩
    · rw [noted]
      dsimp only
      rcases noteNames_cases
          { t with total := t.total + 1, startCycle := start, currentCycle := current } kept with
        ⟨asked, mapped, names, noted⟩ | ⟨no, e, failed⟩
      · rw [noted]
        exact .inl ⟨same.mp ⟨timed, asked, mapped⟩, kept, _, rfl, ⟨timed, asked, mapped⟩, rfl,
          rfl, rfl, rfl, rfl⟩
      · rw [failed]
        exact .inr ⟨fun recordable => no (same.mpr recordable).2, _, e, rfl, rfl, rfl, rfl,
          .inr rfl⟩
    · rw [failed]
      exact .inr ⟨fun recordable => no (same.mpr recordable).1, _, e, rfl, rfl, rfl, rfl, .inr rfl⟩
  · rw [failed]
    exact .inr ⟨no, t, e, rfl, rfl, rfl, rfl, .inl rfl⟩

/-! ## Snapshots one after the other -/

/-- What a trace has of snapshots that it was given: as many of the last as it can keep, each as the
filter admits it. -/
def kept (limit : Option Nat) (filter : Option (List String)) (states : List Datum) : List Datum :=
  limit.elim (states.map (admitted filter)) (states.map (admitted filter)).rtake

variable {limit : Option Nat} {past : List Datum}

theorem keepLast_kept : keepLast limit (kept limit filter past ++ [admitted filter s]) =
    kept limit filter (past ++ [s]) := by
  rw [kept, kept, List.map_append]
  cases limit with
  | none => rfl
  | some n => exact rtake_rtake_append _ _ n

/-- A trace holds snapshots that it was given, and has counted them. -/
structure Retains (limit : Option Nat) (filter : Option (List String)) (past : List Datum)
    (t : Trace) : Prop where
  bound : t.limit = limit
  filters : t.filter = filter
  history : t.history = kept limit filter past
  total : t.total = past.length

/-- The same, where the last count may be for a snapshot that was refused. -/
structure BreaksOff (limit : Option Nat) (filter : Option (List String)) (past : List Datum)
    (t : Trace) : Prop where
  bound : t.limit = limit
  filters : t.filter = filter
  history : t.history = kept limit filter past
  total : t.total = past.length ∨ t.total = past.length + 1

theorem retains_nothing (t : Trace) : t.clear.Retains t.limit t.filter [] where
  bound := rfl
  filters := rfl
  history := by
    rw [kept, List.map_nil]
    cases t.limit with
    | none => rfl
    | some n => exact (List.rtake_nil n).symm
  total := rfl

/-- **A list of snapshots is recorded up to the first that cannot be.** -/
theorem Retains.addAll (retains : t.Retains limit filter past)
    (proper : ∀ s ∈ states, s.Proper) :
    ((∀ s ∈ states, Recordable s) ∧ ∃ t', t.addAll states = (t', .ok ()) ∧
      t'.Retains limit filter (past ++ states)) ∨
    (¬ (∀ s ∈ states, Recordable s) ∧ ∃ t' e, t.addAll states = (t', .error e) ∧
      t'.BreaksOff limit filter (past ++ states.takeWhile (Recordable ·))) := by
  induction states generalizing t past with
  | nil => exact .inl ⟨nofun, t, rfl, by rwa [List.append_nil]⟩
  | cons s rest ih =>
    rw [List.forall_mem_cons] at proper ⊢
    obtain ⟨rfl, rfl, history, total⟩ := retains
    rw [Trace.addAll]
    rcases add_cases t s with ⟨yes, kept_, t', restricted, -, added, recorded⟩ |
      ⟨no, t', e, added, refused⟩
    · have admits := restrict_recordable proper.1 yes t.filter
      obtain rfl := Except.ok.inj (restricted.symm.trans admits)
      have next : t'.Retains t.limit t.filter (past ++ [s]) := by
        refine ⟨recorded.limit, recorded.filter, ?_, ?_⟩
        · rw [recorded.history, history, keepLast_kept]
        · rw [recorded.total, total, List.length_append, List.length_singleton]
      rw [added]
      dsimp only
      rw [List.takeWhile_cons_of_pos (by simpa using yes)]
      rcases ih next proper.2 with ⟨all, went⟩ | ⟨some_, went⟩ <;> rw [List.append_assoc] at went
      · exact .inl ⟨⟨yes, all⟩, went⟩
      · exact .inr ⟨fun all => some_ all.2, went⟩
    · rw [added, List.takeWhile_cons_of_neg (by simpa using no), List.append_nil]
      refine .inr ⟨fun all => no all.1, t', e, rfl, refused.limit, refused.filter,
        refused.history.trans history, ?_⟩
      rw [← total]
      exact refused.total

/-! ## Files -/

/-- A file holds a value, written as JSON. -/
def ReadsAs (fs : Files) (path : String) (saved : Datum) : Prop :=
  Text.lower (Files.extension path) = ".json" ∧
    ∃ text, fs.readText path = .ok text ∧ Json.read text = .ok saved

/-- The snapshots that a value gives: those of its history, and none if a mapping has no history. -/
def statesIn? : Datum → Option (List Datum)
  | .dict entries =>
    match lookup (.text "history") entries with
    | some history => history.items.toOption
    | none => some []
  | _ => none

/-- A value whose snapshots can all be recorded. -/
def Complete (saved : Datum) : Prop :=
  ∃ states, statesIn? saved = some states ∧ ∀ s ∈ states, Recordable s

/-- The snapshots of a value up to the first that cannot be recorded. -/
def recordedOf (saved : Datum) : List Datum :=
  ((statesIn? saved).getD []).takeWhile (Recordable ·)

/-- To take over a value is to record its snapshots in a trace that has none, if it has them. -/
theorem restore_cases (t : Trace) (saved : Datum) :
    (∃ states, statesIn? saved = some states ∧ t.restore saved = t.clear.addAll states) ∨
    (statesIn? saved = none ∧ ∃ e, t.restore saved = (t.clear, .error e)) := by
  cases saved with
  | null | bool _ | number _ | text _ | list _ => exact .inr ⟨rfl, _, rfl⟩
  | dict entries =>
    rw [restore, Datum.getD, statesIn?]
    cases lookup (.text "history") entries with
    | none => exact .inl ⟨[], rfl, rfl⟩
    | some history =>
      dsimp only [Option.getD_some]
      cases history.items with
      | error e => exact .inr ⟨rfl, e, rfl⟩
      | ok items => exact .inl ⟨items, rfl, rfl⟩

/-- The snapshots of what is read from a file are proper values. -/
theorem proper_statesIn {saved : Datum} (proper : saved.Proper) (keyed : saved.Keyed)
    (given : statesIn? saved = some states) : ∀ s ∈ states, s.Proper := by
  cases saved with
  | null | bool _ | number _ | text _ | list _ => cases given
  | dict entries =>
    rw [statesIn?] at given
    split at given
    · rename_i history there
      have listed : history.items = .ok states := by
        cases items_ : history.items with
        | error e =>
          rw [items_] at given
          cases given
        | ok items =>
          rw [items_] at given
          exact congrArg Except.ok (Option.some.inj given)
      exact proper_items (proper.2.lookup there) (KeyedEntries.lookup keyed there) listed
    · cases given
      exact nofun

/-- **A value is taken over** whole, or up to the first snapshot that cannot be recorded. -/
theorem restore_leaves {saved : Datum} (proper : saved.Proper) (keyed : saved.Keyed) (t : Trace) :
    (∃ states t', statesIn? saved = some states ∧ (∀ s ∈ states, Recordable s) ∧
      t.restore saved = (t', .ok ()) ∧ t'.Retains t.limit t.filter states) ∨
    (¬ Complete saved ∧ ∃ t' e, t.restore saved = (t', .error e) ∧
      t'.BreaksOff t.limit t.filter (recordedOf saved)) := by
  have nothing := retains_nothing t
  rcases t.restore_cases saved with ⟨states, given, restored⟩ | ⟨none_, e, restored⟩
  · rw [restored, recordedOf, given]
    rcases nothing.addAll (proper_statesIn proper keyed given) with ⟨all, t', went, retains⟩ |
      ⟨some_, went⟩
    · exact .inl ⟨states, t', rfl, all, went, retains⟩
    · refine .inr ⟨fun ⟨states', given', all⟩ => ?_, went⟩
      obtain rfl := Option.some.inj (given.symm.trans given')
      exact some_ all
  · rw [restored, recordedOf, none_]
    refine .inr ⟨fun ⟨states, given, _⟩ => ?_, t.clear, e, rfl, rfl, rfl, nothing.history, .inl rfl⟩
    cases none_.symm.trans given

/-- To load a file is to take over the value that it holds. -/
theorem load_reading {fs : Files} {path : String} {saved : Datum} (reads : ReadsAs fs path saved)
    (t : Trace) (j : Journal) : (t.load fs j path).1 = (t.restore saved).1 ∧
      (t.load fs j path).2.2 = (t.restore saved).2.map fun _ => true := by
  obtain ⟨known, text, there, read⟩ := reads
  have extension : ¬ (Text.lower (Files.extension path) != ".json") = true := by simp [known]
  rw [load]
  simp only [if_neg extension, there, read]
  rcases t.restore saved with ⟨t', e | _⟩ <;> exact ⟨rfl, rfl⟩

/-- A file that holds no value leaves the trace. -/
theorem load_unread {fs : Files} {path : String} (unread : ∀ saved, ¬ ReadsAs fs path saved)
    (t : Trace) (j : Journal) :
    (t.load fs j path).2.2 ≠ .ok true ∧ (t.load fs j path).1 = t := by
  rw [load]
  by_cases known : Text.lower (Files.extension path) = ".json"
  · have extension : ¬ (Text.lower (Files.extension path) != ".json") = true := by simp [known]
    simp only [if_neg extension]
    cases there : fs.readText path with
    | error e => cases e <;> exact ⟨nofun, rfl⟩
    | ok text =>
      dsimp only
      cases read : Json.read text with
      | error m => exact ⟨nofun, rfl⟩
      | ok saved => exact absurd ⟨known, text, there, read⟩ (unread saved)
  · have extension : (Text.lower (Files.extension path) != ".json") = true := by simpa using known
    simp only [if_pos extension]
    exact ⟨nofun, trivial⟩

/-! ## All or nothing -/

/-- The traces that calls lead to. -/
inductive Reached : Trace → Prop where
  | create {limit : Option Int} {filter : Option (List String)} {t : Trace}
      (created : create limit filter = .ok t) : Reached t
  | add {t : Trace} (reached : Reached t) (s : Datum) : Reached (t.add s).1
  | clear {t : Trace} (reached : Reached t) : Reached t.clear
  | load {t : Trace} (reached : Reached t) (fs : Files) (j : Journal) (path : String) :
      Reached (t.load fs j path).1

/-- A load was possible and the trace has the history of the file, or it was not and the trace is as
it was. -/
def Atomic (t : Trace) (fs : Files) (j : Journal) (path : String) : Prop :=
  ((t.load fs j path).2.2 = .ok true ∧ ∃ saved states, ReadsAs fs path saved ∧
    statesIn? saved = some states ∧ (t.load fs j path).1.Retains t.limit t.filter states) ∨
  ((t.load fs j path).2.2 ≠ .ok true ∧ (t.load fs j path).1 = t)

variable {fs : Files} {path : String} {saved : Datum}

theorem load_complete (reads : ReadsAs fs path saved) (complete : Complete saved) (t : Trace)
    (j : Journal) : (t.load fs j path).2.2 = .ok true ∧ ∃ states,
      statesIn? saved = some states ∧ (t.load fs j path).1.Retains t.limit t.filter states := by
  obtain ⟨left, answer⟩ := load_reading reads t j
  obtain ⟨-, text, -, read⟩ := reads
  rcases restore_leaves (Json.read_proper text saved read) (Json.read_keyed text saved read) t with
    ⟨states, t', given, -, restored, retains⟩ | ⟨no, -⟩
  · rw [left, answer, restored]
    exact ⟨rfl, states, given, retains⟩
  · exact absurd complete no

theorem load_incomplete (reads : ReadsAs fs path saved) (incomplete : ¬ Complete saved) (t : Trace)
    (j : Journal) : (∃ e, (t.load fs j path).2.2 = .error e) ∧
      (t.load fs j path).1.BreaksOff t.limit t.filter (recordedOf saved) := by
  obtain ⟨left, answer⟩ := load_reading reads t j
  obtain ⟨-, text, -, read⟩ := reads
  rcases restore_leaves (Json.read_proper text saved read) (Json.read_keyed text saved read) t with
    ⟨states, -, given, all, -⟩ | ⟨-, t', e, restored, breaksOff⟩
  · exact absurd ⟨states, given, all⟩ incomplete
  · rw [left, answer, restored]
    exact ⟨⟨e, rfl⟩, breaksOff⟩

/-- Nothing of a trace but its limit and its filter has a part in what a file makes of it. -/
theorem load_forgets (reads : ReadsAs fs path saved) {t₁ t₂ : Trace} (limit : t₁.limit = t₂.limit)
    (filter : t₁.filter = t₂.filter) (j₁ j₂ : Journal) :
    (t₁.load fs j₁ path).1 = (t₂.load fs j₂ path).1 := by
  have same : t₁.clear = t₂.clear := by rw [clear, clear, limit, filter]
  rw [(load_reading reads t₁ j₁).1, (load_reading reads t₂ j₂).1, restore, restore, same]

/-- A file whose snapshots cannot all be recorded is taken over in part by some trace that has
recorded something. -/
theorem exists_not_atomic (reads : ReadsAs fs path saved) (incomplete : ¬ Complete saved)
    (j : Journal) : ∃ t, Reached t ∧ ¬ Atomic t fs j path := by
  have blank : Reached { limit := none, filter := none } := @Reached.create none none _ rfl
  obtain ⟨filled, limit, filter, total, reached⟩ : ∃ t : Trace, t.limit = none ∧ t.filter = none ∧
      t.total = 1 ∧ Reached t := ⟨_, rfl, rfl, rfl, blank.add (.dict [])⟩
  have refused (t : Trace) : Atomic t fs j path → (t.load fs j path).1 = t := by
    obtain ⟨⟨e, failed⟩, -⟩ := load_incomplete reads incomplete t j
    rintro (⟨granted, -⟩ | ⟨-, same⟩)
    · cases failed.symm.trans granted
    · exact same
  by_cases lost : Atomic { limit := none, filter := none } fs j path
  · refine ⟨filled, reached, fun kept => ?_⟩
    -- both loads leave the same trace, and the two differed before
    have same := (refused _ lost).symm.trans
      ((load_forgets reads limit.symm filter.symm j j).trans (refused _ kept))
    rw [← same] at total
    cases total
  · exact ⟨_, blank, lost⟩

/-- **A load is all or nothing exactly if all that the file gives can be recorded.**  A file that
holds no value leaves the trace, and one whose snapshots can all be recorded takes its place.  Any
other makes the load fail; but the trace is lost by then, whatever it held, and has the snapshots
that came before the first that cannot be recorded. -/
theorem load_atomic_iff (fs : Files) (path : String) :
    ((∀ t, Reached t → ∀ j, Atomic t fs j path) ↔ ∀ saved, ReadsAs fs path saved → Complete saved) ∧
    ∀ (t : Trace) (j : Journal),
      ((∀ saved, ¬ ReadsAs fs path saved) →
        (t.load fs j path).2.2 ≠ .ok true ∧ (t.load fs j path).1 = t) ∧
      ∀ saved, ReadsAs fs path saved →
        (Complete saved → (t.load fs j path).2.2 = .ok true ∧ ∃ states,
          statesIn? saved = some states ∧
          (t.load fs j path).1.Retains t.limit t.filter states) ∧
        (¬ Complete saved → (∃ e, (t.load fs j path).2.2 = .error e) ∧
          (t.load fs j path).1.BreaksOff t.limit t.filter (recordedOf saved) ∧
          ∀ t' : Trace, t'.limit = t.limit → t'.filter = t.filter →
            (t'.load fs j path).1 = (t.load fs j path).1) := by
  constructor
  · constructor
    · intro atomic saved reads
      by_contra incomplete
      obtain ⟨t, reached, broken⟩ := exists_not_atomic reads incomplete default
      exact broken (atomic t reached default)
    · intro complete t _ j
      by_cases reads : ∃ saved, ReadsAs fs path saved
      · obtain ⟨saved, reads⟩ := reads
        obtain ⟨granted, states, given, retains⟩ := load_complete reads (complete saved reads) t j
        exact .inl ⟨granted, saved, states, reads, given, retains⟩
      · exact .inr (load_unread (not_exists.mp reads) t j)
  · intro t j
    refine ⟨fun unread => load_unread unread t j, ?_⟩
    intro saved reads
    constructor
    · intro complete
      exact load_complete reads complete t j
    · intro incomplete
      obtain ⟨failed, breaksOff⟩ := load_incomplete reads incomplete t j
      exact ⟨failed, breaksOff, fun t' limit filter => load_forgets reads limit filter j j⟩

/-- A trace of one snapshot. -/
def remembering : Trace :=
  (({ limit := some 10, filter := none } : Trace).add (.record [("cycle", .int 7)])).1

/-- One snapshot, and something else behind it. -/
def brokenText : String :=
  "\x7b\"history\": [\x7b\"cycle\": 1\x7d, 5]\x7d"

def broken : Datum := .record [("history", .list [.record [("cycle", .int 1)], .int 5])]

set_option maxRecDepth 20000 in
theorem reads_broken : ReadsAs (Config.fileOf "x.json" brokenText) "x.json" broken := by
  refine ⟨rfl, brokenText, by cbv, ?_⟩
  rw [show brokenText = String.ofList _ from rfl, Json.read.eq_def]
  simp only [String.toList_ofList]
  cbv

/-- A load that fails takes the history of a trace away. -/
theorem load_loses : Reached remembering ∧
    remembering.history = [.record [("cycle", .int 7)]] ∧ remembering.total = 1 ∧
    ReadsAs (Config.fileOf "x.json" brokenText) "x.json" broken ∧
    (remembering.load (Config.fileOf "x.json" brokenText) default "x.json").2.2 =
      .error .wrongKind ∧
    (remembering.load (Config.fileOf "x.json" brokenText) default "x.json").1.history =
      [.record [("cycle", .int 1)]] ∧
    (remembering.load (Config.fileOf "x.json" brokenText) default "x.json").1.total = 2 ∧
    ¬ Atomic remembering (Config.fileOf "x.json" brokenText) default "x.json" := by
  have reached : Reached remembering := .add (@Reached.create (some 10) none _ rfl) _
  obtain ⟨left, answer⟩ := load_reading reads_broken remembering default
  have failed : (remembering.restore broken).2 = .error .wrongKind := rfl
  rw [failed] at answer
  have history : (remembering.restore broken).1.history = [.record [("cycle", .int 1)]] := rfl
  have total : (remembering.restore broken).1.total = 2 := rfl
  rw [← left] at history total
  refine ⟨reached, rfl, rfl, reads_broken, answer, history, total, ?_⟩
  rintro (⟨granted, -⟩ | ⟨-, same⟩)
  · cases answer.symm.trans granted
  · rw [same] at total
    cases total

end Trace
end ChipEight
