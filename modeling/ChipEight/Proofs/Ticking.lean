import ChipEight.Timers
/-! # Ticks

What any number of ticks makes of the timers, in one equation (`Timers.tickMany_eq`), and what some
more time makes of them (`Timers.update_eq`).  How many ticks a time is worth is a matter between
that time, the time carried and the length of a tick (`Timers.account`); what the timers show has no
part in it. -/

namespace ChipEight
namespace Timers

/-! ## Counting down -/

/-- A counter after so many ticks. -/
def countDown (b : UInt8) (n : Nat) : UInt8 := UInt8.ofNat (b.toNat - n)

@[simp] theorem toNat_countDown (b : UInt8) (n : Nat) : (countDown b n).toNat = b.toNat - n := by
  have small := b.toNat_lt
  rw [countDown, UInt8.toNat_ofNat']
  omega

theorem countDown_zero (b : UInt8) : countDown b 0 = b := UInt8.toNat_inj.mp (by simp)

theorem countDown_countDown (b : UInt8) (m n : Nat) :
    countDown (countDown b m) n = countDown b (m + n) :=
  UInt8.toNat_inj.mp (by simp [Nat.sub_sub])

theorem countDown_one (b : UInt8) : (if 0 < b then b - 1 else 0) = countDown b 1 := by
  refine UInt8.toNat_inj.mp ?_
  rw [toNat_countDown]
  by_cases running : 0 < b
  · have one_le : (1 : UInt8) ≤ b := running
    rw [if_pos running, UInt8.toNat_sub_of_le b 1 one_le]
    rfl
  · have stopped : b.toNat = 0 := Nat.eq_zero_of_not_pos running
    rw [if_neg running, stopped]
    rfl

/-- Whether a counter comes to zero within so many ticks. -/
def runsOut (b : UInt8) (n : Nat) : Bool := 0 < b.toNat && b.toNat ≤ n

theorem runsOut_zero (b : UInt8) : runsOut b 0 = false := by
  simp only [runsOut, Bool.and_eq_false_iff, decide_eq_false_iff_not]
  omega

theorem runsOut_one (b : UInt8) : (b == 1) = runsOut b 1 := by
  have one : b = 1 ↔ b.toNat = 1 := UInt8.toNat_inj.symm
  rw [Bool.eq_iff_iff, beq_iff_eq, one]
  simp only [runsOut, Bool.and_eq_true, decide_eq_true_eq]
  omega

theorem runsOut_add (b : UInt8) (m n : Nat) :
    (runsOut b m || runsOut (countDown b m) n) = runsOut b (m + n) := by
  rw [Bool.eq_iff_iff]
  simp only [runsOut, toNat_countDown, Bool.or_eq_true, Bool.and_eq_true, decide_eq_true_eq]
  omega

/-- The timers after so many ticks. -/
def after (t : Timers) (n : Nat) : Timers :=
  { t with
    ticks := t.ticks + n
    delay := countDown t.delay n
    sound := countDown t.sound n
    toneEnded := t.toneEnded || runsOut t.sound n }

theorem after_zero (t : Timers) : t.after 0 = t := by
  simp only [after, Nat.add_zero, countDown_zero, runsOut_zero, Bool.or_false]

theorem after_after (t : Timers) (m n : Nat) : (t.after m).after n = t.after (m + n) := by
  simp only [after, Nat.add_assoc, countDown_countDown, Bool.or_assoc, runsOut_add]

theorem tick_eq (t : Timers) : t.tick = t.after 1 := by
  rw [tick, countDown_one, countDown_one, runsOut_one]
  rfl

/-- **Ticks count both timers down to zero**, and the end of the tone is noted if it comes within
them. -/
theorem tickMany_eq (n : Nat) (t : Timers) : tickMany n t = t.after n := by
  induction n generalizing t with
  | zero => rw [tickMany, after_zero]
  | succ n ih => rw [tickMany, ih, tick_eq, after_after, Nat.add_comm]

/-! ## Time -/

/-- What some more time makes of the time carried, and the ticks that it is worth. -/
def account (carried interval : Float) (elapsed : Number) : Float × Except Failure Int :=
  if elapsed.lt (.int 0) then (carried, .error (.badValue (.elapsed elapsed)))
  else
    match elapsed.toFloat? with
    | none => (carried, .error .beyondRange)
    | some seconds =>
      match wholeTicks (carried + seconds) interval with
      | .error e => (carried + seconds, .error e)
      | .ok ticks =>
        match Number.floatOfInt? ticks with
        | none => (carried + seconds, .error .beyondRange)
        | some paid => (carried + seconds - paid * interval, .ok ticks)

/-- The ticks that an answer stands for; a refusal is worth none. -/
def worth : Except Failure Int → Nat
  | .ok ticks => ticks.toNat
  | .error _ => 0

/-- The timers with an account settled, and the answer. -/
def settle (t : Timers) (account : Float × Except Failure Int) : Timers × Except Failure Int :=
  ({ t.after (worth account.2) with carried := account.1 }, account.2)

theorem settle_error (t : Timers) (carried : Float) (e : Failure) :
    t.settle (carried, .error e) = ({ t with carried }, .error e) := by
  rw [settle, worth, after_zero]

/-- **Time is paid out in ticks**, as many as the account says, whatever the timers show. -/
theorem update_eq (t : Timers) (elapsed : Number) :
    t.update elapsed = t.settle (account t.carried t.interval elapsed) := by
  rw [update, account]
  by_cases negative : elapsed.lt (.int 0) = true
  · rw [if_pos negative, if_pos negative, settle_error]
  rw [if_neg negative, if_neg negative]
  cases elapsed.toFloat? with
  | none => exact (t.settle_error t.carried .beyondRange).symm
  | some seconds =>
    dsimp only
    cases wholeTicks (t.carried + seconds) t.interval with
    | error e => exact (t.settle_error _ e).symm
    | ok ticks =>
      dsimp only
      cases Number.floatOfInt? ticks with
      | none => exact (t.settle_error _ .beyondRange).symm
      | some paid =>
        dsimp only
        rw [tickMany_eq]
        rfl

end Timers
end ChipEight
