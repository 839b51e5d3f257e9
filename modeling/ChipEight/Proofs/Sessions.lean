import ChipEight.CommandLine.Session
/-! # What a run shows

A run on the command line prints, writes files and logs.  Most of its log records depend on how it
was called, so the outcome of a run is told without them: what is shown is printed or written
(`Session.shown`), and from what is shown a run comes to an answer and to what is shown then
(`Run.Yields`).  Runs are told one after the other (`Run.Yields.bind`). -/

namespace ChipEight.CommandLine

def Line.output? : Line → Option String
  | .output text => some text
  | _ => none

def Line.error? : Line → Option String
  | .error text => some text
  | _ => none

/-- What a session shows, log records aside: the lines of its output and of its errors, its files,
and whether logging has been set up. -/
structure Shown where
  output : List String := []
  errors : List String := []
  files : Files
  logging : Bool := false

def Session.shown (s : Session) : Shown where
  output := s.lines.reverse.filterMap Line.output?
  errors := s.lines.reverse.filterMap Line.error?
  files := s.files
  logging := s.console.isSome

namespace Run

variable {α β : Type} {run : Run α} {next : α → Run β} {v v' v'' : Shown}

/-- From what is shown a run comes to an answer, and to what is shown then. -/
def Yields (run : Run α) (v : Shown) (answer : Except Ending α) (v' : Shown) : Prop :=
  ∀ s : Session, s.shown = v → ∃ t, run.run.run s = (answer, t) ∧ t.shown = v'

theorem bind_run (run : Run α) (next : α → Run β) (s : Session) :
    (run >>= next).run.run s = match run.run.run s with
      | (.ok a, t) => (next a).run.run t
      | (.error e, t) => (.error e, t) := by
  rw [ExceptT.run_bind, StateT.run_bind]
  rcases run.run.run s with ⟨e | a, t⟩ <;> rfl

theorem Yields.bind {a : α} {answer : Except Ending β} (first : Yields run v (.ok a) v')
    (rest : Yields (next a) v' answer v'') : Yields (run >>= next) v answer v'' := by
  intro s shown
  obtain ⟨t, ran, shown'⟩ := first s shown
  rw [bind_run, ran]
  exact rest t shown'

theorem Yields.stop {e : Ending} (first : Yields run v (.error e) v') :
    Yields (run >>= next) v (.error e) v' := by
  intro s shown
  obtain ⟨t, ran, shown'⟩ := first s shown
  rw [bind_run, ran]
  exact ⟨t, rfl, shown'⟩

theorem Yields.to {answer : Except Ending α} (yields : Yields run v answer v') (same : v' = v'') :
    Yields run v answer v'' := same ▸ yields

theorem yields_pure (a : α) (v : Shown) : Yields (pure a) v (.ok a) v :=
  fun s shown => ⟨s, rfl, shown⟩

theorem yields_exit (status : Nat) (v : Shown) :
    Yields (exit status : Run α) v (.error (.exit status)) v := fun s shown => ⟨s, rfl, shown⟩

theorem yields_fail (e : Failure) (v : Shown) : Yields (fail e : Run α) v (.error (.failure e)) v :=
  fun s shown => ⟨s, rfl, shown⟩

theorem yields_orFail (a : α) (v : Shown) : Yields (orFail (.ok a)) v (.ok a) v := yields_pure a v

theorem yields_files (v : Shown) : Yields files v (.ok v.files) v := by
  rintro s rfl
  exact ⟨s, rfl, rfl⟩

theorem yields_setFiles (fs : Files) (v : Shown) :
    Yields (setFiles fs) v (.ok ()) { v with files := fs } := by
  rintro s rfl
  exact ⟨{ s with files := fs }, rfl, rfl⟩

theorem yields_print (text : String) (v : Shown) :
    Yields (print text) v (.ok ()) { v with output := v.output ++ [text] } := by
  rintro s rfl
  refine ⟨{ s with lines := .output text :: s.lines }, rfl, ?_⟩
  simp [Session.shown, Line.output?, Line.error?]

theorem yields_printError (text : String) (v : Shown) :
    Yields (printError text) v (.ok ()) { v with errors := v.errors ++ [text] } := by
  rintro s rfl
  refine ⟨{ s with lines := .error text :: s.lines }, rfl, ?_⟩
  simp [Session.shown, Line.output?, Line.error?]

theorem yields_tellTime (cycles : Nat) (v : Shown) : Yields (tellTime cycles) v (.ok ()) v := by
  rintro s rfl
  refine ⟨{ s with lines := .took cycles :: s.lines }, rfl, ?_⟩
  simp [Session.shown, Line.output?, Line.error?]

/-- Log records show where logging has not been set up and they warn, and only there. -/
theorem yields_log {records : List Record}
    (quiet : v.logging = true ∨ ∀ r ∈ records, r.level.rank < Level.warning.rank) :
    Yields (log records) v (.ok ()) v := by
  rintro s rfl
  refine ⟨{ s with lines := (records.filterMap (lineOf s)).reverse ++ s.lines }, rfl, ?_⟩
  have unseen (r : Record) (mem : r ∈ records) : ∀ line ∈ lineOf s r, ∃ r', line = .log r' := by
    rw [lineOf]
    cases console : s.console with
    | some level => simp
    | none =>
      rcases quiet with set_ | mild
      · rw [Session.shown, console] at set_
        cases set_
      · rw [if_neg (Nat.not_le.mpr (mild r mem))]
        simp
  have silent {pick : Line → Option String} (deaf : ∀ r, pick (.log r) = none) :
      (records.filterMap (lineOf s)).filterMap pick = [] := by
    refine List.filterMap_eq_nil_iff.mpr fun line mem => ?_
    obtain ⟨r, there, made⟩ := List.mem_filterMap.mp mem
    obtain ⟨r', rfl⟩ := unseen r there line made
    exact deaf r'
  simp only [Session.shown, List.reverse_append, List.reverse_reverse, List.filterMap_append]
  rw [silent fun _ => rfl, silent fun _ => rfl, List.append_nil, List.append_nil]

end Run

end ChipEight.CommandLine
