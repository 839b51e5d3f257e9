import ChipEight.Proofs.Ticking
import ChipEight.Request.Parts
/-! # What an update leaves

An update takes the ticks that it answers off both timers at once, and off neither below zero
(`Timers.CountsDown`).  Only the ticks count, not how they were come by, so two updates leave what
one of as many ticks would.  The end of a tone is told once: whoever asks for it hears of a tick that
took the sound timer from one to zero since the last time that it was asked for or forgotten
(`Timers.consumeToneEnd_asked`).  `Timers.update_counts_down` puts the three together. -/

namespace ChipEight

variable {t u : Timers} {q : TimersRequest} {n : Int}

namespace Timers

/-! ## Updates -/

/-- The timers after an update, by the ticks that it answered; less than none is none. -/
structure CountsDown (t : Timers) (n : Int) (u : Timers) : Prop where
  delay : (u.delay.toNat : Int) = max (t.delay.toNat - max n 0) 0
  sound : (u.sound.toNat : Int) = max (t.sound.toNat - max n 0) 0
  ticks : (u.ticks : Int) = t.ticks + max n 0
  toneEnded : u.toneEnded = true ↔
    t.toneEnded = true ∨ 0 < t.sound.toNat ∧ (t.sound.toNat : Int) ≤ max n 0

/-- Both counters, and whether the end of a tone is still to be told. -/
def shown (t : Timers) : UInt8 × UInt8 × Bool := (t.delay, t.sound, t.toneEnded)

theorem shown_after (same : t.shown = u.shown) (count : Nat) :
    (t.after count).shown = (u.after count).shown := by
  obtain ⟨delay, sound, ended⟩ : t.delay = u.delay ∧ t.sound = u.sound ∧
      t.toneEnded = u.toneEnded := by simpa [shown] using same
  simp only [shown, after, delay, sound, ended]

/-- An update that answers has performed its ticks, and nothing else but to carry time over. -/
theorem eq_after_of_update {elapsed : Number} (passed : t.update elapsed = (u, .ok n)) :
    u = { t.after n.toNat with carried := u.carried } := by
  rw [update_eq, settle] at passed
  obtain ⟨rfl, answer⟩ := Prod.mk.inj passed
  rw [answer, worth]

theorem countsDown_of_update {elapsed : Number} (passed : t.update elapsed = (u, .ok n)) :
    t.CountsDown n u := by
  have left := eq_after_of_update passed
  constructor
  · have delay : u.delay = countDown t.delay n.toNat := congrArg Timers.delay left
    rw [delay, toNat_countDown]
    omega
  · have sound : u.sound = countDown t.sound n.toNat := congrArg Timers.sound left
    rw [sound, toNat_countDown]
    omega
  · have performed : u.ticks = t.ticks + n.toNat := congrArg Timers.ticks left
    rw [performed]
    omega
  · have ended : u.toneEnded = (t.toneEnded || runsOut t.sound n.toNat) :=
      congrArg Timers.toneEnded left
    rw [ended, Bool.or_eq_true, runsOut, Bool.and_eq_true, decide_eq_true_iff, decide_eq_true_iff]
    refine or_congr_right (and_congr_right fun _ => ?_)
    omega

theorem shown_of_update {elapsed : Number} (passed : t.update elapsed = (u, .ok n)) :
    u.shown = (t.after n.toNat).shown := by
  rw [eq_after_of_update passed]
  rfl

end Timers

/-! ## The end of a tone -/

namespace TimersRequest

/-- The timers after a request. -/
def leaves (t : Timers) : TimersRequest → Timers
  | setDelay value => t.setDelay value
  | setSound value => t.setSound value
  | tick => t.tick
  | update elapsed => (t.update elapsed).1
  | consumeToneEnd => t.consumeToneEnd.2
  | reset => t.reset

/-- The ticks that a request performs. -/
def ticks (t : Timers) : TimersRequest → Nat
  | tick => 1
  | update elapsed => Timers.worth (t.update elapsed).2
  | _ => 0

/-- A tick of the request takes the sound timer from one to zero. -/
def EndsTone (t : Timers) (q : TimersRequest) : Prop :=
  ∃ k < q.ticks t, (Timers.tickMany k t).sound = 1

/-- Whether a tone that has ended is forgotten. -/
def clears : TimersRequest → Bool
  | consumeToneEnd | reset => true
  | _ => false

theorem endsTone_iff : EndsTone t q ↔ Timers.runsOut t.sound (q.ticks t) = true := by
  have one (k : Nat) : (Timers.tickMany k t).sound = 1 ↔ t.sound.toNat - k = 1 := by
    rw [Timers.tickMany_eq, Timers.after, ← UInt8.toNat_inj, Timers.toNat_countDown]
    rfl
  simp only [EndsTone, one, Timers.runsOut, Bool.and_eq_true, decide_eq_true_eq]
  constructor
  · rintro ⟨k, before, last⟩
    omega
  · rintro ⟨running, enough⟩
    exact ⟨t.sound.toNat - 1, by omega, by omega⟩

/-- **One request.**  The end of a tone is still to be told if it ended just now, or was still to be
told and has not been forgotten. -/
theorem toneEnded_leaves : (leaves t q).toneEnded = true ↔
    EndsTone t q ∨ q.clears = false ∧ t.toneEnded = true := by
  rw [endsTone_iff]
  cases q with
  | tick => simp [leaves, ticks, clears, Timers.tick_eq, Timers.after, or_comm]
  | update elapsed =>
    simp [leaves, ticks, clears, Timers.update_eq, Timers.settle, Timers.after, or_comm]
  | _ => simp [leaves, ticks, clears, Timers.runsOut_zero, Timers.setDelay, Timers.setSound,
      Timers.consumeToneEnd, Timers.reset]

end TimersRequest

namespace Timers

/-- The timers after some requests, the latest first. -/
def asked (t : Timers) : List TimersRequest → Timers
  | [] => t
  | q :: past => q.leaves (t.asked past)

/-- A tone has ended during some requests, the latest first, and has not been forgotten since. -/
def Rings (t : Timers) (past : List TimersRequest) : Prop :=
  ∃ since q before, past = since ++ q :: before ∧ q.EndsTone (t.asked before) ∧
    ∀ r ∈ since, r.clears = false

theorem rings_cons {past : List TimersRequest} :
    t.Rings (q :: past) ↔ q.EndsTone (t.asked past) ∨ q.clears = false ∧ t.Rings past := by
  constructor
  · rintro ⟨since, r, before, split, ends, kept⟩
    cases since with
    | nil =>
      obtain ⟨rfl, rfl⟩ := List.cons.inj split
      exact .inl ends
    | cons s since =>
      obtain ⟨rfl, rfl⟩ := List.cons.inj split
      rw [List.forall_mem_cons] at kept
      exact .inr ⟨kept.1, since, r, before, rfl, ends, kept.2⟩
  · rintro (ends | ⟨keeps, since, r, before, rfl, ends, kept⟩)
    · exact ⟨[], q, past, rfl, ends, List.forall_mem_nil _⟩
    · exact ⟨q :: since, r, before, rfl, ends, List.forall_mem_cons.mpr ⟨keeps, kept⟩⟩

/-- **What is told of the end of a tone** after some requests, the latest first. -/
theorem consumeToneEnd_asked (past : List TimersRequest) :
    (t.asked past).consumeToneEnd.1 = true ↔
      t.Rings past ∨ t.toneEnded = true ∧ ∀ r ∈ past, r.clears = false := by
  change (t.asked past).toneEnded = true ↔ _
  induction past with
  | nil => simp [asked, Rings]
  | cons q past ih =>
    rw [asked, TimersRequest.toneEnded_leaves, ih, rings_cons, List.forall_mem_cons, and_or_left,
      or_assoc, and_left_comm]

/-- **An update in closed form**, the flag that it leaves, and that only its ticks count. -/
theorem update_counts_down {elapsed : Number} (passed : t.update elapsed = (u, .ok n)) :
    t.CountsDown n u ∧
    u.consumeToneEnd.1 = u.toneEnded ∧
    (∀ past, (u.consumeToneEnd.2.asked past).consumeToneEnd.1 = true ↔
      u.consumeToneEnd.2.Rings past) ∧
    ∀ (v a b : Timers) (first second : Number) (i j : Int), v.shown = t.shown →
      v.update first = (a, .ok i) → a.update second = (b, .ok j) →
      max n 0 = max i 0 + max j 0 → b.shown = u.shown := by
  refine ⟨countsDown_of_update passed, rfl, fun past => ?_, ?_⟩
  · have cleared : ¬ u.consumeToneEnd.2.toneEnded = true := Bool.false_ne_true
    rw [consumeToneEnd_asked, or_iff_left fun owed => cleared owed.1]
  · intro v a b first second i j same begun ended total
    have count : i.toNat + j.toNat = n.toNat := by omega
    rw [shown_of_update passed, shown_of_update ended, shown_after (shown_of_update begun),
      after_after, count, shown_after same]

/-- A tone of twenty ticks, at sixty ticks a second. -/
def twenty : Timers := ⟨.int 60, 1.0 / 60.0, 200, 20, 0.0, false, 0⟩

set_option maxRecDepth 8000 in
theorem update_counts_down_twenty : ∃ u a b, twenty.update (.float 0.5) = (u, .ok 30) ∧
    twenty.update (.float 0.25) = (a, .ok 15) ∧ a.update (.float 0.25) = (b, .ok 15) ∧
    u.delay.toNat = 170 ∧ u.sound.toNat = 0 ∧ u.toneEnded = true ∧ b.shown = u.shown := by
  have half : twenty.update (.float 0.5) = ((twenty.update (.float 0.5)).1, .ok 30) := rfl
  have quarter : twenty.update (.float 0.25) = ((twenty.update (.float 0.25)).1, .ok 15) := rfl
  have again : (twenty.update (.float 0.25)).1.update (.float 0.25) =
      (((twenty.update (.float 0.25)).1.update (.float 0.25)).1, .ok 15) := rfl
  obtain ⟨counts, -, -, together⟩ := update_counts_down half
  refine ⟨_, _, _, half, quarter, again, ?_, ?_, ?_, ?_⟩
  · exact Int.ofNat.inj counts.delay
  · exact Int.ofNat.inj counts.sound
  · exact counts.toneEnded.mpr (.inr (by decide))
  · exact together _ _ _ _ _ _ _ rfl quarter again rfl

end Timers
end ChipEight
