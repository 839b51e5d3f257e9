import ChipEight.Proofs.TraceFile
import ChipEight.Proofs.TraceLoading
/-! # A saved trace in another trace

Whatever a trace holds was recorded once and can be recorded again (`Trace.Reached.recordable`), so
the file that it is saved to is taken over whole by any other trace: that has as many of the last
snapshots as it can keep, with the registers that its filter admits, and counts them all.  One that
keeps them as they are answers every question as the first does (`Trace.saved_transfers`). -/

namespace ChipEight

/-! ## Values that are one -/

deriving instance DecidableEq for Number

namespace Datum

mutual

/-- Whether two values are one, and not only the same amounts. -/
def equal : Datum → Datum → Bool
  | null, null => true
  | bool a, bool b => a == b
  | number m, number n => decide (m = n)
  | text s, text t => s == t
  | list xs, list ys => equalItems xs ys
  | dict xs, dict ys => equalEntries xs ys
  | _, _ => false

def equalItems : List Datum → List Datum → Bool
  | [], [] => true
  | x :: xs, y :: ys => equal x y && equalItems xs ys
  | _, _ => false

def equalEntries : List (Datum × Datum) → List (Datum × Datum) → Bool
  | [], [] => true
  | (k, v) :: xs, (k', v') :: ys => equal k k' && equal v v' && equalEntries xs ys
  | _, _ => false

end

mutual

theorem eq_of_equal (a b : Datum) (one : equal a b = true) : a = b := by
  cases a with
  | null => cases b <;> first | rfl | cases one
  | bool x => cases b <;> first | exact congrArg bool (eq_of_beq one) | cases one
  | number m => cases b <;> first | exact congrArg number (of_decide_eq_true one) | cases one
  | text s => cases b <;> first | exact congrArg text (eq_of_beq one) | cases one
  | list xs => cases b <;> first | exact congrArg list (eq_of_equalItems xs _ one) | cases one
  | dict xs => cases b <;> first | exact congrArg dict (eq_of_equalEntries xs _ one) | cases one

theorem eq_of_equalItems (xs ys : List Datum) (one : equalItems xs ys = true) : xs = ys := by
  cases xs with
  | nil => cases ys <;> first | rfl | cases one
  | cons x xs =>
    cases ys with
    | nil => cases one
    | cons y ys =>
      rw [equalItems, Bool.and_eq_true] at one
      rw [eq_of_equal x y one.1, eq_of_equalItems xs ys one.2]

theorem eq_of_equalEntries (xs ys : List (Datum × Datum)) (one : equalEntries xs ys = true) :
    xs = ys := by
  cases xs with
  | nil => cases ys <;> first | rfl | cases one
  | cons x xs =>
    obtain ⟨k, v⟩ := x
    cases ys with
    | nil => cases one
    | cons y ys =>
      obtain ⟨k', v'⟩ := y
      rw [equalEntries, Bool.and_eq_true, Bool.and_eq_true] at one
      rw [eq_of_equal k k' one.1.1, eq_of_equal v v' one.1.2, eq_of_equalEntries xs ys one.2]

end

end Datum

open Datum

/-- What a text reads as can be told by comparing. -/
theorem Json.read_of_equal {text : String} {d : Datum}
    (reads : (Json.read text).toOption.any (equal · d) = true) : Json.read text = .ok d := by
  cases read : Json.read text with
  | error m =>
    rw [read] at reads
    cases reads
  | ok d' =>
    rw [read] at reads
    exact congrArg Except.ok (eq_of_equal d' d reads)

namespace Trace

variable {t t' : Trace} {s : Datum} {fs files : Files} {j j' : Journal} {path : String}
  {clock : Clock}

/-! ## What a trace holds can be recorded -/

theorem recordable_add (held : ∀ s ∈ t.history, Recordable s) (s : Datum) :
    ∀ s' ∈ (t.add s).1.history, Recordable s' := by
  rcases add_cases t s with ⟨-, kept, t', -, recordable, added, recorded⟩ |
    ⟨-, t', e, added, refused⟩
  · rw [added, recorded.history]
    intro s' mem
    rcases List.mem_append.mp (mem_keepLast mem) with old | new
    · exact held s' old
    · exact List.mem_singleton.mp new ▸ recordable
  · rw [added, refused.history]
    exact held

theorem recordable_addAll {states : List Datum} (held : ∀ s ∈ t.history, Recordable s) :
    ∀ s ∈ (t.addAll states).1.history, Recordable s := by
  induction states generalizing t with
  | nil => exact held
  | cons s rest ih =>
    have next := recordable_add held s
    rw [addAll]
    rcases added : t.add s with ⟨t', e | _⟩ <;> rw [added] at next
    · exact next
    · exact ih next

theorem recordable_restore (t : Trace) (saved : Datum) :
    ∀ s ∈ (t.restore saved).1.history, Recordable s := by
  have nothing : ∀ s ∈ t.clear.history, Recordable s := List.forall_mem_nil _
  rcases t.restore_cases saved with ⟨states, -, restored⟩ | ⟨-, e, restored⟩ <;> rw [restored]
  · exact recordable_addAll nothing
  · exact nothing

/-- **Whatever calls have made of a trace, its snapshots can be recorded again.** -/
theorem Reached.recordable (reached : Reached t) : ∀ s ∈ t.history, Recordable s := by
  induction reached with
  | create created =>
    rw [create.eq_def] at created
    repeat' split at created
    all_goals cases created
    all_goals exact List.forall_mem_nil _
  | add _ s ih => exact recordable_add ih s
  | clear _ _ => exact List.forall_mem_nil _
  | @load t _ fs j path ih =>
    by_cases reads : ∃ saved, ReadsAs fs path saved
    · obtain ⟨saved, reads⟩ := reads
      rw [(load_reading reads t j).1]
      exact t.recordable_restore saved
    · rw [(load_unread (not_exists.mp reads) t j).2]
      exact ih

/-! ## What a saved trace gives -/

theorem statesIn?_toDatum {d : Datum} (told : t.toDatum clock = .ok d) :
    statesIn? d = some t.history := by
  rw [toDatum] at told
  cases stats : t.statistics clock.elapsed with
  | error e =>
    rw [stats] at told
    cases told
  | ok statistics =>
    rw [stats] at told
    cases told
    rfl

/-- A save that was possible has printed the trace. -/
theorem text_of_save (saved : t.save fs j path "json" clock = (files, j', .ok true)) :
    ∃ d, t.toDatum clock = .ok d ∧ files.readText path = .ok (Json.print d) := by
  rw [save, if_pos (by decide)] at saved
  rcases written : t.writeTo fs path "json" clock with ⟨files', e | _⟩
  · rw [written] at saved
    cases e <;> cases saved
  · rw [written] at saved
    obtain rfl : files' = files := congrArg Prod.fst saved
    rw [writeTo.eq_def] at written
    cases parent : fs.makeMissingParent path with
    | error e =>
      rw [parent] at written
      cases written
    | ok made =>
      simp only [parent, beq_self_eq_true, if_true] at written
      cases told : t.toDatum clock with
      | error e =>
        rw [told] at written
        cases written
      | ok d =>
        rw [told] at written
        dsimp only at written
        cases stored : made.writeText path (Json.print d) with
        | error e =>
          rw [stored] at written
          cases written
        | ok left =>
          rw [stored] at written
          cases written
          exact ⟨d, rfl, Files.readText_writeText (Json.no_return_print d) stored⟩

/-- A trace whose statistics can be told is saved on any path that can be written. -/
theorem save_of_writable (writable : fs.Writable path) {d : Datum}
    (told : t.toDatum clock = .ok d) (j : Journal) :
    ∃ files j', t.save fs j path "json" clock = (files, j', .ok true) := by
  obtain ⟨made, parent, write⟩ := writable.writeText
  obtain ⟨files, stored⟩ := write (Json.print d)
  have written : t.writeTo fs path "json" clock = (files, .ok ()) := by
    rw [writeTo.eq_def, parent]
    simp only [beq_self_eq_true, if_true, told, stored]
  obtain ⟨j', saved⟩ := save_of_writeTo (by decide) written j
  exact ⟨files, j', saved⟩

/-! ## The same answers -/

/-- Two traces answer every question about their histories alike. -/
structure AnswersAs (t t' : Trace) : Prop where
  states (start stop : Option Int) : t'.states start stop = t.states start stop
  nearest (cycle : Datum) : t'.nearest cycle = t.nearest cycle
  registerHistory (name : String) : t'.registerHistory name = t.registerHistory name
  registerArray (name : String) : t'.registerArray name = t.registerArray name
  changes (name : String) (start stop : Datum) :
    t'.changes name start stop = t.changes name start stop
  opcodeHistogram : t'.opcodeHistogram = t.opcodeHistogram
  hotAddresses (limit : Option Int) : t'.hotAddresses limit = t.hotAddresses limit

theorem answersAs_of_history (same : t'.history = t.history) : AnswersAs t t' where
  states start stop := by rw [Trace.states, Trace.states, same]
  nearest cycle := by rw [Trace.nearest, Trace.nearest, same]
  registerHistory name := by rw [Trace.registerHistory, Trace.registerHistory, same]
  registerArray name := by
    simp only [Trace.registerArray, Trace.registerHistory, same]
  changes name start stop := by rw [Trace.changes, Trace.changes, same]
  opcodeHistogram := by rw [Trace.opcodeHistogram, Trace.opcodeHistogram, same]
  hotAddresses limit := by rw [Trace.hotAddresses, Trace.hotAddresses, same]

/-- A trace that keeps all it is given, as it is given, has just that. -/
theorem kept_all {limit : Option Nat} {states : List Datum}
    (room : ∀ n ∈ limit, states.length ≤ n) : kept limit none states = states := by
  have whole : states.map (admitted none) = states := by
    rw [List.map_congr_left fun s _ => admitted.eq_def none s]
    exact List.map_id' states
  rw [kept, whole]
  cases limit with
  | none => rfl
  | some n =>
    rw [Option.elim_some, List.rtake, Nat.sub_eq_zero_of_le (room n rfl), List.drop_zero]

/-- **A saved trace arrives in any other.**  If what is printed reads back, whatever calls have made
of the first trace and whatever the second one holds, filters and keeps: a load of the file that the
first was saved to is possible, and leaves the second as if it had recorded the snapshots of the
first, and nothing else.  If it keeps all of them as they are, it answers as the first does. -/
theorem saved_transfers (reached : Reached t)
    (json : Text.lower (Files.extension path) = ".json")
    (reads : ∀ d, t.toDatum clock = .ok d → Json.read (Json.print d) = .ok d)
    (saved : t.save fs j path "json" clock = (files, j', .ok true)) (t₂ : Trace) (j₂ : Journal) :
    ∃ loaded notes, t₂.load files j₂ path = (loaded, notes, .ok true) ∧
      loaded.Retains t₂.limit t₂.filter t.history ∧
      (t₂.filter = none → (∀ n ∈ t₂.limit, t.history.length ≤ n) → AnswersAs t loaded) := by
  obtain ⟨d, told, there⟩ := text_of_save saved
  have holds : ReadsAs files path d := ⟨json, _, there, reads d told⟩
  have given := statesIn?_toDatum told
  obtain ⟨granted, states, given', retains⟩ :=
    load_complete holds ⟨t.history, given, reached.recordable⟩ t₂ j₂
  obtain rfl := Option.some.inj (given.symm.trans given')
  generalize t₂.load files j₂ path = outcome at granted retains ⊢
  obtain ⟨loaded, notes, answer⟩ := outcome
  obtain rfl : answer = .ok true := granted
  refine ⟨loaded, notes, rfl, retains, ?_⟩
  intro whole room
  refine answersAs_of_history ?_
  rw [retains.history, whole, kept_all room]

/-- A trace that has recorded more than it keeps. -/
def sending : Trace := [
    .record [("cycle", .int 1)],
    .record [("cycle", .int 2), ("registers", .record [("V1", .int 5), ("V0", .int 4)])],
    .record [("cycle", .int 3), ("registers", .record [("V0", .int 6)])]].foldl
  (fun t s => (t.add s).1) { limit := some 2, filter := none }

/-- A trace that keeps less, and has something else. -/
def receiving : Trace :=
  (({ limit := some 1, filter := some ["V1"] } : Trace).add (.record [("cycle", .int 9)])).1

/-- What the trace is saved as. -/
def sent : Datum := .record [
  ("history", .list [
    .record [("cycle", .int 2), ("registers", .record [("V1", .int 5), ("V0", .int 4)])],
    .record [("cycle", .int 3), ("registers", .record [("V0", .int 6)])]]),
  ("statistics", .record [
    ("total_records", .int 3), ("elapsed_time", .int 0), ("total_cycles", .int 2),
    ("cycles_per_second", .int 0), ("current_history_size", .int 2), ("max_history_size", .int 2),
    ("unique_registers", .list [.text "V0", .text "V1"])])]

def sentText : String :=
"\x7b
  \"history\": [
    \x7b
      \"cycle\": 2,
      \"registers\": \x7b
        \"V1\": 5,
        \"V0\": 4
      \x7d
    \x7d,
    \x7b
      \"cycle\": 3,
      \"registers\": \x7b
        \"V0\": 6
      \x7d
    \x7d
  ],
  \"statistics\": \x7b
    \"total_records\": 3,
    \"elapsed_time\": 0,
    \"total_cycles\": 2,
    \"cycles_per_second\": 0,
    \"current_history_size\": 2,
    \"max_history_size\": 2,
    \"unique_registers\": [
      \"V0\",
      \"V1\"
    ]
  \x7d
\x7d"

theorem told_sending : sending.toDatum noTime = .ok sent := by
  have names : sending.names = [.text "V1", .text "V0"] := rfl
  have sorted : sortNames [.text "V1", .text "V0"] = .ok [.text "V0", .text "V1"] := by cbv
  have span : (Datum.int 3).difference (.int 1) = .ok (.int 2) := rfl
  have held : ¬ (Number.lt (.int 0) noTime.elapsed &&
      ((Datum.int 2).amount?.bind Number.toFloat?).isNone) = true := by decide +kernel
  have covered : sending.cyclesCovered noTime.elapsed = .ok (.int 2) := by
    change ((Datum.int 3).difference (.int 1) >>= fun covered => _) = _
    rw [span]
    simp only [bind, Except.bind]
    rw [if_neg held]
    rfl
  rw [toDatum, statistics, covered, names, sorted]
  rfl

set_option maxRecDepth 20000 in
theorem print_sent : Json.print sent = sentText := by cbv

set_option maxRecDepth 20000 in
theorem read_sent : Json.read sentText = .ok sent := by
  refine Json.read_of_equal ?_
  -- as a list of characters the text need not be decoded to be read
  rw [show sentText = String.ofList _ from rfl, Json.read.eq_def]
  simp only [String.toList_ofList]
  decide +kernel

theorem saved_transfers_sending :
    Reached sending ∧ (∀ d, sending.toDatum noTime = .ok d → Json.read (Json.print d) = .ok d) ∧
    ∃ files j, sending.save {} default "t.json" "json" noTime = (files, j, .ok true) ∧
      (∃ loaded notes, receiving.load files default "t.json" = (loaded, notes, .ok true) ∧
        loaded.history = [.record [("cycle", .int 3), ("registers", .record [])]] ∧
        loaded.total = 2) ∧
      ∃ loaded notes, (default : Trace).load files default "t.json" = (loaded, notes, .ok true) ∧
        AnswersAs sending loaded := by
  have reached : Reached sending := .add (.add (.add (@Reached.create (some 2) none _ rfl) _) _) _
  have json : Text.lower (Files.extension "t.json") = ".json" := rfl
  have reads (d : Datum) (told : sending.toDatum noTime = .ok d) :
      Json.read (Json.print d) = .ok d := by
    obtain rfl := Except.ok.inj (told_sending.symm.trans told)
    rw [print_sent, read_sent]
  have writable : ({} : Files).Writable "t.json" := by decide +kernel
  obtain ⟨files, j, saved⟩ := save_of_writable writable told_sending default
  obtain ⟨loaded, notes, done, retains, -⟩ :=
    saved_transfers reached json reads saved receiving default
  obtain ⟨copy, notes', done', -, answers⟩ :=
    saved_transfers reached json reads saved default default
  refine ⟨reached, reads, files, j, saved, ⟨loaded, notes, done, ?_, retains.total⟩,
    copy, notes', done', answers rfl nofun⟩
  rw [retains.history]
  rfl

end Trace
end ChipEight
