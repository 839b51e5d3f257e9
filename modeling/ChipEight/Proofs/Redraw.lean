import ChipEight.Proofs.Requests
/-! # No missed redraw

A display that is not dirty shows what it showed when the host last marked it clean; a host that has
never done so has missed nothing (`System.no_missed_redraw`).  For whatever happens to a system, but
that mark, leaves its display as it was or dirty (`System.happen_flagged`). -/

namespace ChipEight

namespace Display

variable {d d' : Display}

theorem Flagged.refl (d : Display) : d.Flagged d := .inl rfl

theorem Flagged.dirty (flagged : d.Flagged d') (dirty : d.dirty = true) : d'.dirty = true := by
  rcases flagged with rfl | dirty'
  · exact dirty
  · exact dirty'

/-- A display that is clean after changes that are flagged has not changed. -/
theorem Flagged.eq_of_clean (flagged : d.Flagged d') (clean : d'.dirty = false) : d' = d :=
  flagged.resolve_right (Bool.eq_false_iff.mp clean)

end Display

theorem Machine.Turned.flagged {m m' : Machine} {p p' : List UInt8} (turned : m.Turned p m' p') :
    m.display.Flagged m'.display := by
  cases turned with
  | host frame handled =>
    rw [frame]
    exact .refl _
  | step => exact m.step_flagged
  | loaded _ | reset _ | reloaded _ => exact .inr rfl
  | broken _ _ => exact .refl _

/-- What a machine shows was shown before, or is flagged. -/
def Machine.Shows (d : Display) (m : Machine) : Prop := d.Flagged m.display

/-- The host says that it has rendered the display. -/
def Happening.Marks (happening : Happening) : Prop :=
  ∃ files, happening = .asked files (.display .markClean)

namespace System

variable {s : System} {happening : Happening} {happenings : List Happening} {width height : Int}

theorem turns_flagged (s : System) (turns : List Turn) :
    s.machine.display.Flagged (turns.foldl turn s).machine.display := by
  induction turns generalizing s with
  | nil => exact .refl _
  | cons turn_ turns ih => exact (s.turned turn_).flagged.trans (ih (s.turn turn_))

/-- **All but the mark is flagged**, also where it fails midway. -/
theorem happen_flagged (s : System) (plain : ¬ happening.Marks) :
    s.machine.display.Flagged (s.happen happening).machine.display := by
  have start : Machine.Shows s.machine.display s.machine := .refl _
  cases happening with
  | watched change => exact start
  | asked files q =>
    cases q with
    | system q =>
      rw [happen, ask_system, serve_turns]
      exact s.turns_flagged _
    | memory q => exact q.keeps (fun _ shows_ => shows_) { system := s, files } start
    | registers q => exact q.keeps (fun _ shows_ => shows_) { system := s, files } start
    | timers q => exact q.keeps (fun _ shows_ => shows_) { system := s, files } start
    | keypad q => exact q.keeps (fun _ shows_ => shows_) { system := s, files } start
    | display q =>
      have other : q ≠ .markClean := by
        rintro rfl
        exact plain ⟨files, rfl⟩
      exact q.keeps (fun _ _ cause => .inr (cause.resolve_right other)) { system := s, files } start
    | processor q =>
      refine q.keeps ?_ ?_ ?_ { system := s, files } start
      · exact fun flagged => flagged.trans (Machine.step_flagged _)
      · exact fun i address flagged => flagged.trans (Machine.execute_flagged _ i address)
      · exact fun flagged => flagged

theorem run_flagged (s : System) (plain : ∀ happening ∈ happenings, ¬ happening.Marks) :
    s.machine.display.Flagged (s.run happenings).2.machine.display := by
  rw [run_last]
  induction happenings generalizing s with
  | nil => exact .refl _
  | cons happening rest ih =>
    rw [List.forall_mem_cons] at plain
    exact (s.happen_flagged plain.1).trans (ih (s.happen happening) plain.2)

/-- The mark lowers the flag, and does no more to the display. -/
theorem happen_marks (s : System) (marks : happening.Marks) :
    (s.happen happening).machine.display = s.machine.display.markClean := by
  obtain ⟨files, rfl⟩ := marks
  rfl

theorem ask_fails_flagged {files : Files} {q : Request} {e : Failure}
    (fails : (s.ask files q).1 = .error e) :
    s.machine.display.Flagged (s.ask files q).2.machine.display := by
  have plain : ¬ (Happening.asked files q).Marks := by
    rintro ⟨files, same⟩
    cases same
    cases fails
  exact s.happen_flagged plain

/-- What a host may rely on that draws only what is dirty; `now` comes after some happenings. -/
structure Redraws (s : System) (happenings : List Happening) (now : System) : Prop where
  /-- A clean display shows what it showed at the latest mark. -/
  marked : ∀ {before mark since}, happenings = before ++ mark :: since → mark.Marks →
    (∀ later ∈ since, ¬ later.Marks) → now.machine.display.dirty = false →
      now.machine.display.grid = (s.run before).2.machine.display.grid
  /-- Before any mark, nothing has happened to a clean display. -/
  unmarked : (∀ happening ∈ happenings, ¬ happening.Marks) → now.machine.display.dirty = false →
    now.machine.display = s.machine.display
  /-- Only the mark lowers the flag. -/
  lowers : ∀ {happening}, now.machine.display.dirty = true →
    (now.happen happening).machine.display.dirty = false → happening.Marks
  /-- What fails does not, nor do the turns of a request. -/
  fails : ∀ {files q e}, (now.ask files q).1 = .error e → now.machine.display.dirty = true →
    (now.ask files q).2.machine.display.dirty = true
  turns : ∀ turns : List Turn, now.machine.display.dirty = true →
    (turns.foldl turn now).machine.display.dirty = true

/-- **No redraw is missed**, after whatever has happened and in the midst of a request. -/
theorem no_missed_redraw (created : Display.create width height = .ok s.machine.display)
    (happenings : List Happening) (turns : List Turn) :
    s.machine.display = ⟨Grid.blank width.toNat height.toNat, false, 0, 0⟩ ∧
      s.Redraws happenings (turns.foldl turn (s.run happenings).2) := by
  refine ⟨?_, ?_, ?_, ?_, ?_, ?_⟩
  · rw [Display.create] at created
    split at created
    · cases created
    · exact (Except.ok.inj created).symm
  · rintro before mark since rfl marks rest clean
    have flagged := ((s.run before).2.happen mark).run_flagged rest
    have whole : (s.run (before ++ mark :: since)).2 =
        (((s.run before).2.happen mark).run since).2 := by
      simp only [run_last, List.foldl_append, List.foldl_cons]
    rw [whole] at clean ⊢
    rw [(flagged.trans (turns_flagged _ turns)).eq_of_clean clean, happen_marks _ marks]
    rfl
  · intro plain clean
    exact ((s.run_flagged plain).trans (turns_flagged _ turns)).eq_of_clean clean
  · intro happening dirty lowered
    by_contra plain
    exact Bool.eq_false_iff.mp lowered ((happen_flagged _ plain).dirty dirty)
  · exact fun fails dirty => (ask_fails_flagged fails).dirty dirty
  · exact fun later dirty => (turns_flagged _ later).dirty dirty

/-- A draw that the host renders, and one that cannot be done. -/
def oneFrame : List Happening := [
  .asked {} (.display (.drawSprite 1 0 [0xC0])), .asked {} (.display .markClean),
  .asked {} (.display (.getPixel 2 0)), .asked {} (.registers .pop)]

theorem no_missed_redraw_frame : ∃ s : System,
    (({ width := 3, height := 2 } : MachineConfig).boot default).2 = .ok s ∧
    Display.create 3 2 = .ok s.machine.display ∧
    s.machine.display = ⟨Grid.blank 3 2, false, 0, 0⟩ ∧
    s.Redraws oneFrame ([.step, .reset].foldl turn (s.run oneFrame).2) := by
  obtain ⟨s, booted⟩ :
    ∃ s, (({ width := 3, height := 2 } : MachineConfig).boot default).2 = .ok s := ⟨_, rfl⟩
  have created : Display.create 3 2 = .ok s.machine.display := (boot_equipped booted).display
  exact ⟨s, booted, created, no_missed_redraw created oneFrame [.step, .reset]⟩

end System
end ChipEight
