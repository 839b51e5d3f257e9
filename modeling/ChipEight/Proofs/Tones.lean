import ChipEight.Proofs.Broadcast
import ChipEight.Proofs.Peripherals
import ChipEight.Proofs.Ticking
import Mathlib.Data.List.Induction
/-! # Tones

The events of the tone against the sound timer.  A start is told by the step that sets a timer that
stood still going, and by nothing else (`System.starts_iff`); an end is told by the update in which
the timer runs out (`System.ends_iff`).  So each end has its start before it (`Heralded`), and a
start that still waits for its end, with the timer at zero, was cut short
(`System.cutShort_of_sounding`).  `System.tones_track` says so of every system that is put
together. -/

namespace ChipEight

/-- The start of a tone was told, and no end since. -/
def Sounding (past : List EventType) : Prop :=
  ∃ before since, past = before ++ .toneStart :: since ∧ .toneEnd ∉ since

/-- Each end was told while a tone was sounding. -/
def Heralded (past : List EventType) : Prop :=
  ∀ before since, past = before ++ .toneEnd :: since → Sounding before

section
variable {past new before since : List EventType}

/-- An event of a longer past is one of the new ones, or was there before. -/
theorem split_append {event : EventType} (split : past ++ new = before ++ event :: since) :
    (∃ middle, before = past ++ middle ∧ new = middle ++ event :: since) ∨
      ∃ middle, past = before ++ event :: middle ∧ since = middle ++ new := by
  rcases List.append_eq_append_iff.mp split with ⟨middle, front, back⟩ | ⟨middle, front, back⟩
  · exact .inl ⟨middle, front, back⟩
  · cases middle with
    | nil => exact .inl ⟨[], by rw [front, List.append_nil, List.append_nil], back.symm⟩
    | cons first middle =>
      rw [List.cons_append, List.cons.injEq] at back
      obtain ⟨rfl, rest⟩ := back
      exact .inr ⟨middle, front, rest⟩

theorem sounding_append :
    Sounding (past ++ new) ↔ Sounding new ∨ Sounding past ∧ .toneEnd ∉ new := by
  constructor
  · rintro ⟨before, since, split, none_⟩
    rcases split_append split with ⟨middle, -, inside⟩ | ⟨middle, inside, rfl⟩
    · exact .inl ⟨middle, since, inside, none_⟩
    · rw [List.mem_append, not_or] at none_
      exact .inr ⟨⟨before, middle, inside, none_.1⟩, none_.2⟩
  · rintro (⟨before, since, rfl, none_⟩ | ⟨⟨before, since, rfl, none_⟩, quiet⟩)
    · exact ⟨past ++ before, since, (List.append_assoc ..).symm, none_⟩
    · refine ⟨before, since ++ new, by simp, ?_⟩
      rw [List.mem_append, not_or]
      exact ⟨none_, quiet⟩

theorem Sounding.of_mem (start : .toneStart ∈ new) (none_ : .toneEnd ∉ new) : Sounding new := by
  obtain ⟨before, since, rfl⟩ := List.append_of_mem start
  rw [List.mem_append, List.mem_cons, not_or, not_or] at none_
  exact ⟨before, since, rfl, none_.2.2⟩

theorem Sounding.start_mem (sounding : Sounding past) : .toneStart ∈ past := by
  obtain ⟨before, since, rfl, -⟩ := sounding
  simp

theorem not_sounding_end : ¬ Sounding (past ++ [.toneEnd]) := by
  rw [sounding_append]
  rintro (alone | ⟨-, none_⟩)
  · simpa using alone.start_mem
  · simp at none_

theorem heralded_nil : Heralded [] := by
  intro before since split
  simp at split

theorem Heralded.append (heralded : Heralded past)
    (next : ∀ middle since, new = middle ++ .toneEnd :: since → Sounding (past ++ middle)) :
    Heralded (past ++ new) := by
  intro before since split
  rcases split_append split with ⟨middle, rfl, inside⟩ | ⟨middle, inside, -⟩
  · exact next middle since inside
  · exact heralded before middle inside

/-- **Between two ends there is a start.** -/
theorem Heralded.between (heralded : Heralded past) {middle : List EventType}
    (split : past = before ++ .toneEnd :: middle ++ .toneEnd :: since) : .toneStart ∈ middle := by
  have sounding := heralded _ _ split
  rw [← List.singleton_append, ← List.append_assoc, sounding_append] at sounding
  rcases sounding with inside | ⟨outside, -⟩
  · exact inside.start_mem
  · exact absurd outside not_sounding_end

end

namespace Timers

variable {t : Timers} {n : Nat}

theorem toneActive_iff : t.toneActive = true ↔ t.sound ≠ 0 := by
  rw [toneActive, decide_eq_true_iff]
  exact UInt8.pos_iff_ne_zero

/-- A counter runs out just when it goes from a number above zero to zero. -/
theorem runsOut_iff {b : UInt8} : runsOut b n = true ↔ b ≠ 0 ∧ countDown b n = 0 := by
  rw [runsOut, Bool.and_eq_true, decide_eq_true_iff, decide_eq_true_iff, ne_eq,
    ← UInt8.toNat_inj, ← UInt8.toNat_inj, toNat_countDown, UInt8.toNat_zero]
  omega

end Timers

namespace System

variable {s : System} {turn_ : Turn} {elapsed : Number} {config : MachineConfig}

/-- A step sets the sound timer going. -/
def Strikes (s : System) (turn_ : Turn) : Prop :=
  turn_ = .step ∧ s.machine.timers.sound = 0 ∧ (s.turn turn_).machine.timers.sound ≠ 0

/-- The sound timer runs out in an update. -/
def Fades (s : System) (turn_ : Turn) : Prop :=
  (∃ elapsed, turn_ = .host (.updateTimers elapsed)) ∧
    s.machine.timers.sound ≠ 0 ∧ (s.turn turn_).machine.timers.sound = 0

/-- What cuts a tone short: a zero for the sound timer, or a fresh start. -/
def Silences (s : System) (turn_ : Turn) : Prop :=
  (∃ x, turn_ = .step ∧ s.Executes (.setSound x) s.step.1 ∧ s.machine.registers.get x = 0) ∨
    s.Restarts turn_

/-- Nobody is owed the end of a tone. -/
def Quiet (s : System) : Prop := s.machine.timers.toneEnded = false

/-! ## Turns -/

theorem quiet_boot {o : Observers} (h : (config.boot o).2 = .ok s) :
    s.Quiet ∧ s.machine.timers.sound = 0 := by
  have created := (boot_equipped h).timers
  rw [Timers.create] at created
  split at created
  · cases created
  split at created
  · cases created
  · rw [Quiet, ← Except.ok.inj created]
    exact ⟨rfl, rfl⟩

/-- An update that succeeds tells of the end itself, and one that fails leaves the timers be. -/
theorem quiet_updateTimers (quiet : s.Quiet) (elapsed : Number) :
    (s.updateTimers elapsed).1.Quiet := by
  rw [Quiet, updateTimers, Timers.update_eq]
  rcases Timers.account s.machine.timers.carried s.machine.timers.interval elapsed with
    ⟨carried, e | ticks⟩
  · rw [Timers.settle_error]
    exact quiet
  · dsimp only [Timers.settle]
    split <;> rfl

theorem quiet_turn (quiet : s.Quiet) (turn_ : Turn) : (s.turn turn_).Quiet := by
  by_cases other : turn_ = .step
  · subst other
    rw [Quiet, turn, step_timers]
    cases s.executed? .step with
    | none => exact quiet
    | some op => cases op <;> exact quiet
  · rcases s.turn_timers other with ⟨-, reset⟩ | ⟨elapsed, rfl⟩ | ⟨-, same⟩
    · rw [Quiet, reset]
      rfl
    · exact s.quiet_updateTimers quiet elapsed
    · rwa [Quiet, same]

theorem count_start_step (s : System) : (announced s.stepNotices).count .toneStart =
    if s.machine.timers.sound = 0 ∧ s.step.1.machine.timers.sound ≠ 0 then 1 else 0 := by
  rw [step_machine, stepNotices]
  rcases stepped : s.machine.step with ⟨m, e | r⟩
  · have same : m.timers = s.machine.timers := by rw [Machine.step_fails_values stepped]
    rw [same, if_neg fun both => both.2 both.1]
    cases e <;> rfl
  have unknown : (announced (Observers.unknownNotices r s.cycleCount)).count .toneStart = 0 := by
    refine List.count_eq_zero.mpr fun mem => ?_
    have mem := Observers.announced_unknownNotices r _ mem
    simp at mem
  have effect : (announced (Observers.effectNotices s.machine m r)).count .toneStart = 0 := by
    refine List.count_eq_zero.mpr fun mem => ?_
    have mem := Observers.announced_effectNotices _ m r mem
    simp at mem
  rw [announced_cons, Observers.announced_stepNotices, Observers.announced_toneNotices]
  simp only [Notice.type?, Option.toList_none, List.nil_append, List.count_append, unknown, effect,
    Nat.zero_add]
  have active : (m.timers.toneActive && !s.machine.timers.toneActive) = true ↔
      s.machine.timers.sound = 0 ∧ m.timers.sound ≠ 0 := by
    rw [Bool.and_eq_true, Bool.not_eq_true', ← Bool.not_eq_true, Timers.toneActive_iff,
      Timers.toneActive_iff, not_not, and_comm]
  simp only [active]
  split <;> rfl

theorem count_end_update (quiet : s.Quiet) (elapsed : Number) :
    (announced (s.timerNotices elapsed)).count .toneEnd =
      if s.machine.timers.sound ≠ 0 ∧ (s.updateTimers elapsed).1.machine.timers.sound = 0
      then 1 else 0 := by
  rw [(s.updateTimers_eq elapsed).2, timerNotices, Timers.update_eq]
  rcases Timers.account s.machine.timers.carried s.machine.timers.interval elapsed with
    ⟨carried, e | ticks⟩
  · rw [Timers.settle_error, if_neg fun both => both.1 both.2]
    rfl
  · have owed : s.machine.timers.toneEnded = false := quiet
    simp only [Timers.settle, Timers.after, Timers.worth, owed, Bool.false_or, ← Timers.runsOut_iff]
    split <;> rfl

/-- **A start is told by a step that sets the sound timer going**, and by nothing else. -/
theorem starts_iff : .toneStart ∈ announced (s.notices turn_) ↔ s.Strikes turn_ := by
  by_cases stepping : turn_ = .step
  · subst stepping
    rw [notices, ← List.count_pos_iff, count_start_step]
    split
    · rename_i going
      exact iff_of_true Nat.one_pos ⟨rfl, going⟩
    · rename_i idle
      exact iff_of_false (Nat.lt_irrefl 0) fun strikes => idle strikes.2
  · refine ⟨fun mem => ?_, fun strikes => absurd strikes.1 stepping⟩
    have mem := s.announced_notices turn_ mem
    cases turn_ with
    | step => exact absurd rfl stepping
    | host action => cases action <;> simp [Turn.announces] at mem
    | _ => simp [Turn.announces] at mem

/-- **An end is told by an update in which the sound timer runs out**, and by nothing else. -/
theorem ends_iff (quiet : s.Quiet) :
    .toneEnd ∈ announced (s.notices turn_) ↔ s.Fades turn_ := by
  by_cases passing : ∃ elapsed, turn_ = .host (.updateTimers elapsed)
  · obtain ⟨elapsed, rfl⟩ := passing
    rw [notices, hostNotices, ← List.count_pos_iff, count_end_update quiet]
    split
    · rename_i stopped
      exact iff_of_true Nat.one_pos ⟨⟨elapsed, rfl⟩, stopped⟩
    · rename_i idle
      exact iff_of_false (Nat.lt_irrefl 0) fun fades => idle fades.2
  · refine ⟨fun mem => ?_, fun fades => absurd fades.1 passing⟩
    have mem := s.announced_notices turn_ mem
    cases turn_ with
    | host action =>
      cases action with
      | updateTimers elapsed => exact absurd ⟨elapsed, rfl⟩ passing
      | _ => simp [Turn.announces] at mem
    | _ => simp [Turn.announces] at mem

theorem starts_once (s : System) (turn_ : Turn) :
    (announced (s.notices turn_)).count .toneStart ≤ 1 := by
  by_cases stepping : turn_ = .step
  · subst stepping
    rw [notices, count_start_step]
    split <;> omega
  · have none_ : .toneStart ∉ announced (s.notices turn_) :=
      fun mem => stepping (starts_iff.mp mem).1
    rw [List.count_eq_zero.mpr none_]
    exact Nat.zero_le 1

/-- The end of a tone is all that a turn tells, if it does. -/
theorem ends_alone (quiet : s.Quiet) (fades : s.Fades turn_) :
    announced (s.notices turn_) = [.toneEnd] := by
  obtain ⟨⟨elapsed, rfl⟩, going, stopped⟩ := fades
  have once := count_end_update quiet elapsed
  rw [if_pos ⟨going, stopped⟩] at once
  have only : ∀ type ∈ announced (s.timerNotices elapsed), .toneEnd = type :=
    fun type mem => (List.mem_singleton.mp (s.announced_timerNotices elapsed mem)).symm
  rw [List.count_eq_length.mpr only] at once
  exact List.eq_replicate_iff.mpr ⟨once, fun type mem => (only type mem).symm⟩

/-- What other turns than steps do to the sound timer. -/
theorem sound_of_other (other : turn_ ≠ .step) :
    (s.Restarts turn_ ∧ (s.turn turn_).machine.timers.sound = 0) ∨
    (∃ elapsed, turn_ = .host (.updateTimers elapsed) ∧ ∃ n,
      (s.turn turn_).machine.timers.sound = Timers.countDown s.machine.timers.sound n) ∨
    (s.turn turn_).machine.timers.sound = s.machine.timers.sound := by
  rcases s.turn_timers other with ⟨restarts, reset⟩ | ⟨elapsed, rfl⟩ | ⟨-, same⟩
  · exact .inl ⟨restarts, by rw [reset]; rfl⟩
  · refine .inr (.inl ⟨elapsed, rfl, ?_⟩)
    rw [turn, host, (s.updateTimers_eq elapsed).2, Timers.update_eq]
    exact ⟨_, rfl⟩
  · exact .inr (.inr (by rw [same]))

/-- Only a step sets the sound timer going. -/
theorem strikes_of_going (still : s.machine.timers.sound = 0)
    (going : (s.turn turn_).machine.timers.sound ≠ 0) : s.Strikes turn_ := by
  refine ⟨?_, still, going⟩
  by_contra other
  rcases s.sound_of_other other with ⟨-, zero⟩ | ⟨elapsed, -, n, counted⟩ | same
  · exact going zero
  · rw [counted, still, ← UInt8.toNat_inj.ne, Timers.toNat_countDown] at going
    simp at going
  · exact going (same.trans still)

/-- A sound timer that comes to zero runs out in an update or is silenced. -/
theorem fades_or_silences (going : s.machine.timers.sound ≠ 0)
    (stopped : (s.turn turn_).machine.timers.sound = 0) : s.Fades turn_ ∨ s.Silences turn_ := by
  by_cases stepping : turn_ = .step
  · subst stepping
    right
    rw [turn, step_timers] at stopped
    cases executed : s.executed? .step with
    | none =>
      rw [executed] at stopped
      exact absurd stopped going
    | some op =>
      rw [executed] at stopped
      have executes := (executed?_eq_some_iff.mp executed).2
      cases op with
      | setSound x => exact .inl ⟨x, rfl, executes, stopped⟩
      | _ => exact absurd stopped going
  · rcases s.sound_of_other stepping with ⟨restarts, -⟩ | ⟨elapsed, passes, -⟩ | same
    · exact .inr (.inr restarts)
    · exact .inl ⟨⟨elapsed, passes⟩, going, stopped⟩
    · exact absurd (same.symm.trans stopped) going

/-! ## Runs -/

/-- How past events and the sound timer hang together. -/
structure InTune (s : System) (past : List EventType) : Prop where
  quiet : s.Quiet
  sounding : s.toneActive = true → Sounding past
  heralded : Heralded past

theorem turn_inTune {past : List EventType} (inTune : s.InTune past) (turn_ : Turn) :
    (s.turn turn_).InTune (past ++ announced (s.notices turn_)) := by
  obtain ⟨quiet, sounding, heralded⟩ := inTune
  refine ⟨quiet_turn quiet turn_, ?_, ?_⟩
  · intro active
    have some_ := Timers.toneActive_iff.mp active
    have endless : .toneEnd ∉ announced (s.notices turn_) :=
      fun mem => some_ ((ends_iff quiet).mp mem).2.2
    rw [sounding_append]
    by_cases still : s.machine.timers.sound = 0
    · exact .inl (.of_mem (starts_iff.mpr (strikes_of_going still some_)) endless)
    · exact .inr ⟨sounding (Timers.toneActive_iff.mpr still), endless⟩
  · refine heralded.append fun middle since split => ?_
    have fades : s.Fades turn_ := (ends_iff quiet).mp (by rw [split]; simp)
    -- the end is all that is told, so nothing is told before it
    rw [ends_alone quiet fades, eq_comm, List.append_eq_singleton_iff] at split
    obtain ⟨rfl, -⟩ | ⟨-, impossible⟩ := split
    · rw [List.append_nil]
      exact sounding (Timers.toneActive_iff.mpr fades.2.1)
    · cases impossible

/-- What has been told after some turns. -/
def told (s : System) (turns : List Turn) : List EventType := announced (s.noticesOf turns)

theorem told_append (s : System) (xs ys : List Turn) :
    s.told (xs ++ ys) = s.told xs ++ (xs.foldl turn s).told ys := by
  rw [told, noticesOf_append, announced_append, told, told]

theorem told_snoc (s : System) (turns : List Turn) (turn_ : Turn) :
    s.told (turns ++ [turn_]) = s.told turns ++ announced ((turns.foldl turn s).notices turn_) := by
  rw [told_append, told, told, noticesOf, noticesOf, List.append_nil]

theorem fires_told (s : System) (turns : List Turn) :
    ∃ log, s.observers.Fires log (turns.foldl turn s).observers ∧
      (besides log).map News.type = s.told turns := by
  obtain ⟨log, fires, told⟩ := s.turns_fire turns
  exact ⟨log, fires, by rw [told, types_newsOf, System.told]⟩

theorem turns_inTune (start : s.InTune []) (turns : List Turn) :
    (turns.foldl turn s).InTune (s.told turns) := by
  induction turns using List.reverseRecOn with
  | nil => exact start
  | append_singleton turns turn_ ih =>
    rw [told_snoc, List.foldl_append]
    exact turn_inTune ih turn_

/-- Among some turns is one that cut the tone short, and no tone has started since. -/
def CutShort (s : System) (turns : List Turn) : Prop :=
  ∃ before turn_ since, turns = before ++ turn_ :: since ∧
    let u := before.foldl turn s
    u.toneActive = true ∧ (u.turn turn_).toneActive = false ∧ u.Silences turn_ ∧
      .toneStart ∉ u.told (turn_ :: since)

theorem CutShort.snoc {turns : List Turn} (cut : s.CutShort turns)
    (none_ : .toneStart ∉ announced ((turns.foldl turn s).notices turn_)) :
    s.CutShort (turns ++ [turn_]) := by
  obtain ⟨before, silence, since, rfl, active, inactive, silences, quiet⟩ := cut
  refine ⟨before, silence, since ++ [turn_], by simp, active, inactive, silences, ?_⟩
  rw [← List.cons_append, told_snoc, List.mem_append, not_or]
  rw [List.foldl_append] at none_
  exact ⟨quiet, none_⟩

/-- A start without its end, with the sound timer at zero, was cut short. -/
theorem cutShort_of_sounding (start : s.InTune []) {turns : List Turn}
    (sounding : Sounding (s.told turns)) (inactive : (turns.foldl turn s).toneActive = false) :
    s.CutShort turns := by
  induction turns using List.reverseRecOn with
  | nil =>
    obtain ⟨before, since, split, -⟩ := sounding
    simp [told, noticesOf] at split
  | append_singleton turns turn_ ih =>
    have inTune := turns_inTune start turns
    rw [told_snoc] at sounding
    rw [List.foldl_append] at inactive
    set u := turns.foldl turn s
    have stopped : (u.turn turn_).machine.timers.sound = 0 := by
      by_contra going
      exact Bool.eq_false_iff.mp inactive (Timers.toneActive_iff.mpr going)
    have startless : .toneStart ∉ announced (u.notices turn_) :=
      fun mem => (starts_iff.mp mem).2.2 stopped
    by_cases still : u.machine.timers.sound = 0
    · have quiet : ¬ Sounding (announced (u.notices turn_)) :=
        fun sounding => startless sounding.start_mem
      have before := ((sounding_append.mp sounding).resolve_left quiet).1
      have silent : u.toneActive = false :=
        Bool.eq_false_iff.mpr fun active => Timers.toneActive_iff.mp active still
      exact (ih before silent).snoc startless
    · rcases fades_or_silences still stopped with fades | silences
      · rw [ends_alone inTune.quiet fades] at sounding
        exact absurd sounding not_sounding_end
      · refine ⟨turns, turn_, [], rfl, Timers.toneActive_iff.mpr still, inactive, silences, ?_⟩
        rwa [told, noticesOf, noticesOf, List.append_nil]

theorem ends_once (quiet : s.Quiet) (turn_ : Turn) :
    (announced (s.notices turn_)).count .toneEnd ≤ 1 := by
  by_cases fades : s.Fades turn_
  · rw [ends_alone quiet fades]
    exact Nat.le_refl 1
  · rw [List.count_eq_zero.mpr fun mem => fades ((ends_iff quiet).mp mem)]
    exact Nat.zero_le 1

/-- The events of the tone keep track of the sound timer along some turns. -/
structure Tracks (s : System) (turns : List Turn) : Prop where
  /-- Besides instructions, what is told is fired, along the turns and in any next one. -/
  fired : ∃ log, s.observers.Fires log (turns.foldl turn s).observers ∧
    (besides log).map News.type = s.told turns
  firedNext : ∀ turn_, ∃ log,
    (turns.foldl turn s).observers.Fires log ((turns.foldl turn s).turn turn_).observers ∧
    (besides log).map News.type = announced ((turns.foldl turn s).notices turn_)
  /-- While the tone is active, its start has been told, and no end since. -/
  sounding : (turns.foldl turn s).toneActive = true → Sounding (s.told turns)
  /-- A start is told by a step that sets the sound timer going. -/
  starts : ∀ turn_, .toneStart ∈ announced ((turns.foldl turn s).notices turn_) ↔
    (turns.foldl turn s).Strikes turn_
  startsOnce : ∀ turn_, (announced ((turns.foldl turn s).notices turn_)).count .toneStart ≤ 1
  /-- An end is told by an update in which the sound timer runs out. -/
  ends : ∀ turn_, .toneEnd ∈ announced ((turns.foldl turn s).notices turn_) ↔
    (turns.foldl turn s).Fades turn_
  endsOnce : ∀ turn_, (announced ((turns.foldl turn s).notices turn_)).count .toneEnd ≤ 1
  between : ∀ {before middle since},
    s.told turns = before ++ .toneEnd :: middle ++ .toneEnd :: since → .toneStart ∈ middle
  /-- If the tone is over and no end was told, it was cut short. -/
  cutShort : Sounding (s.told turns) → (turns.foldl turn s).toneActive = false → s.CutShort turns

theorem tracks (start : s.InTune []) (turns : List Turn) : s.Tracks turns := by
  have inTune := turns_inTune start turns
  exact {
    fired := fires_told s turns
    firedNext := fun turn_ => by
      obtain ⟨log, fires, told⟩ := (turns.foldl turn s).turn_fires turn_
      exact ⟨log, fires, by rw [told, types_newsOf]⟩
    sounding := inTune.sounding
    starts := fun _ => starts_iff
    startsOnce := starts_once _
    ends := fun _ => ends_iff inTune.quiet
    endsOnce := ends_once inTune.quiet
    between := inTune.heralded.between
    cutShort := cutShort_of_sounding start }

/-- **The events of the tone track the sound timer** of every system that is put together, along any
turns; and requests are turns. -/
theorem tones_track {o : Observers} (booted : (config.boot o).2 = .ok s) :
    (∀ turns, s.Tracks turns) ∧
    ∀ asked : List Asked, s.serveAll asked = (s.turnsOf asked).foldl turn s := by
  obtain ⟨quiet, still⟩ := quiet_boot booted
  have start : s.InTune [] :=
    ⟨quiet, fun active => absurd still (Timers.toneActive_iff.mp active), heralded_nil⟩
  exact ⟨tracks start, s.serveAll_turns⟩

/-- A program (`LD V0, 3`, `LD ST, V0`, `LD V0, 0`, `LD ST, V0`) whose tone is cut short. -/
def oneTone : List Asked := [
  ({}, .loadProgram [0x60, 0x03, 0xF0, 0x18, 0x60, 0x00, 0xF0, 0x18]),
  ({}, .step), ({}, .step), ({}, .step), ({}, .step)]

theorem tones_track_cut : ∃ s : System, (({} : MachineConfig).boot default).2 = .ok s ∧
    s.Tracks (s.turnsOf oneTone) ∧ s.serveAll oneTone = (s.turnsOf oneTone).foldl turn s := by
  obtain ⟨s, booted⟩ : ∃ s, (({} : MachineConfig).boot default).2 = .ok s := ⟨_, rfl⟩
  obtain ⟨tracks, served⟩ := tones_track booted
  exact ⟨s, booted, tracks _, served oneTone⟩

end System
end ChipEight
