import ChipEight.Proofs.Broadcast
import ChipEight.Proofs.Executions
/-! # What is told of a draw

A step that draws fires one event, which is to say where the sprite was drawn.  Its coordinates are
read when the step is over, and by then VF holds the collision: so they are those of the sprite but
where VX or VY is VF and held something else (`System.draw_told_iff`). -/

namespace ChipEight

/-- The event of a draw of so many rows. -/
def drawEvent (x y : UInt8) (rows : Nat) (collision : Bool) : Datum :=
  .record [("x", .int x.toNat), ("y", .int y.toNat), ("rows", .int rows),
    ("collision", .bool collision)]

theorem drawEvent_inj {x y x' y' : UInt8} {rows : Nat} {collision collision' : Bool} :
    drawEvent x y rows collision = drawEvent x' y' rows collision' ↔
      x = x' ∧ y = y' ∧ collision = collision' := by
  simp only [← UInt8.toNat_inj, ← Int.ofNat_inj]
  simp [drawEvent, Datum.record, Datum.int]

namespace Machine

variable {m t : Machine} {x y : Reg} {rows : Nat} {collision : Bool}

/-- The byte that stands for a collision. -/
def flagByte (collision : Bool) : UInt8 := if collision then 1 else 0

/-- The sprite behind the index register has been drawn at VX and VY. -/
structure Draws (m : Machine) (x y : Reg) (rows : Nat) (collision : Bool) (t : Machine) :
    Prop where
  sprite : ∃ bytes, readRun m.memory m.registers.index rows = .ok bytes ∧
    m.display.drawSprite (m.V x) (m.V y) (bytes.map fun b => (b.toNat : Int)) =
      .ok (t.display, collision)
  registers : ∀ z, t.registers.get z = if z = Reg.flag then flagByte collision
    else m.registers.get z

theorem drawRows_draws {n : Next} (h : m.drawRows x y rows = (t, .ok n)) :
    ∃ collision, m.Draws x y rows collision t := by
  obtain ⟨bytes, display, collision, read, drawn, rfl, -⟩ := drawRows_returns h
  refine ⟨collision, ⟨bytes, read, drawn⟩, fun z => ?_⟩
  rw [Registers.setFlag, Registers.get_set]
  simp only [eq_comm, flagByte]

end Machine

namespace System

variable {s t : System} {x y : Reg} {rows : Nat} {collision : Bool}

theorem Executes.draws (executes : s.Executes (.draw x y rows) t) :
    ∃ collision, s.machine.Draws x y rows collision t.machine := by
  obtain ⟨w, r, word, denoted, stepped⟩ := executes
  obtain ⟨v, after, n, other, performed, machine⟩ :=
    Machine.step_performed (machine_step_of_ok stepped)
  obtain rfl := other.unique word
  rw [(denotes_iff word.lt).mp denoted] at performed
  obtain ⟨collision, sprite, registers⟩ := Machine.drawRows_draws performed
  rw [machine]
  exact ⟨collision, sprite, registers⟩

/-- Among the news is one draw, where the sprite is drawn by the system. -/
def TellsDraw (s : System) (x y : Reg) (rows : Nat) (collision : Bool) (log : List News) : Prop :=
  payloads .displayDraw log =
    [drawEvent (s.machine.registers.get x) (s.machine.registers.get y) rows collision]

theorem Executes.fired_draw (executes : s.Executes (.draw x y rows) t) :
    fired .displayDraw (s.notices .step) = [drawEvent (t.machine.registers.get x)
      (t.machine.registers.get y) rows (t.machine.registers.flag != 0)] := by
  obtain ⟨w, r, word, denoted, stepped⟩ := executes
  obtain ⟨v, other, -, instruction, -⟩ := step_report stepped
  obtain rfl := other.unique word
  have operation : r.instruction.operation = .draw x y rows := by
    rw [instruction, Machine.decode_of_lt word.lt]
    exact (denotes_iff word.lt).mp denoted
  have effect : fired .displayDraw (.lines s.machine.stepLines ::
      Observers.stepNotices s.machine t.machine s.cycleCount r) =
      fired .displayDraw (Observers.effectNotices s.machine t.machine r) :=
    Observers.fired_stepNotices (by decide) (by decide) ..
  rw [notices_of_step stepped, effect, Observers.effectNotices, operation]
  rfl

/-- **What is told of a draw.**  One event is fired, with the rows and the collision of the draw.
It has the coordinates of the sprite if and only if VF is none of them, or held already the byte that
the collision leaves there. -/
theorem draw_told_iff (executes : s.Executes (.draw x y rows) t) :
    ∃ collision log, s.machine.Draws x y rows collision t.machine ∧
      s.observers.Fires log t.observers ∧
      payloads .displayDraw log = [drawEvent (t.machine.registers.get x)
        (t.machine.registers.get y) rows collision] ∧
      (s.TellsDraw x y rows collision log ↔ x ≠ Reg.flag ∧ y ≠ Reg.flag ∨
        s.machine.registers.flag = Machine.flagByte collision) := by
  obtain ⟨collision, draws⟩ := executes.draws
  have told := executes.fired_draw
  have flag : t.machine.registers.flag = Machine.flagByte collision :=
    (draws.registers Reg.flag).trans (if_pos rfl)
  have bit : (t.machine.registers.flag != 0) = collision := by
    rw [flag]
    cases collision <;> rfl
  rw [bit] at told
  obtain ⟨w, r, -, -, stepped⟩ := executes
  obtain ⟨log, fires, news⟩ := s.turn_fires .step
  rw [turn, stepped] at fires
  rw [← payloads_eq_fired news (by decide)] at told
  refine ⟨collision, log, draws, fires, told, ?_⟩
  have same (z : Reg) : t.machine.registers.get z = s.machine.registers.get z ↔
      z ≠ Reg.flag ∨ s.machine.registers.flag = Machine.flagByte collision := by
    rw [draws.registers]
    by_cases isFlag : z = Reg.flag
    · rw [if_pos isFlag, isFlag, or_iff_right (not_not_intro rfl), eq_comm]
      rfl
    · rw [if_neg isFlag, or_iff_left_of_imp fun _ => isFlag]
      exact iff_of_true rfl isFlag
  rw [TellsDraw, told, List.singleton_inj, drawEvent_inj, same, same, and_iff_left rfl,
    ← and_or_right]

/-- A system that is about to draw a row at VF, which holds a five, and V0. -/
def drawingAtFlag : System :=
  let m := Machine.running #[0xDF, 0x01]
  { (default : System) with
    machine := { m with registers := m.registers.set Reg.flag 5 }
    observers := { (default : Observers) with bus := .create Bus.defaultLimit } }

set_option maxRecDepth 4000 in
theorem drawingAtFlag_executes :
    drawingAtFlag.Executes (.draw Reg.flag 0 1) drawingAtFlag.step.1 := by
  have executed : drawingAtFlag.executed? .step = some (.draw Reg.flag 0 1) := rfl
  exact (executed?_eq_some_iff.mp executed).2

theorem draw_told_iff_drawingAtFlag : ∃ t, drawingAtFlag.Executes (.draw Reg.flag 0 1) t ∧
    ∃ collision log, drawingAtFlag.machine.Draws Reg.flag 0 1 collision t.machine ∧
      drawingAtFlag.observers.Fires log t.observers ∧
      payloads .displayDraw log =
        [drawEvent (t.machine.registers.get Reg.flag) 0 1 collision] ∧
      ¬ drawingAtFlag.TellsDraw Reg.flag 0 1 collision log := by
  obtain ⟨collision, log, draws, fires, told, iff_⟩ := draw_told_iff drawingAtFlag_executes
  refine ⟨_, drawingAtFlag_executes, collision, log, draws, fires, told, fun tells => ?_⟩
  rcases iff_.mp tells with ⟨apart, -⟩ | held
  · exact apart rfl
  · cases collision <;> exact absurd held (by decide)

set_option maxRecDepth 4000 in
/-- The one event that is counted and kept then. -/
theorem drawingAtFlag_bus : drawingAtFlag.step.1.observers.bus.stats.triggered = 1 ∧
    drawingAtFlag.step.1.observers.bus.history.map Event.news =
      [⟨.displayDraw, "display", drawEvent 1 0 1 true⟩] := ⟨rfl, rfl⟩

/-- **The event of a draw need not say where.** -/
theorem draw_misplaced : ¬ ∀ (s t : System) (x y : Reg) (rows : Nat),
    s.Executes (.draw x y rows) t →
      ∃ collision log, s.machine.Draws x y rows collision t.machine ∧
        s.observers.Fires log t.observers ∧ s.TellsDraw x y rows collision log := by
  intro claim
  obtain ⟨collision, log, -, fires, tells⟩ := claim _ _ _ _ _ drawingAtFlag_executes
  have lists : drawingAtFlag.observers.bus.Lists [] := Bus.lists_create _
  have quiet : drawingAtFlag.observers.bus.Quiet := Bus.quiet_create _
  obtain ⟨count, history⟩ := drawingAtFlag_bus
  -- whatever the log is, the bus has counted one event, and keeps it
  obtain ⟨news, rfl⟩ : ∃ news, log = [news] := by
    rw [fires.counted lists quiet] at count
    exact List.length_eq_one_iff.mp ((Nat.zero_add _).symm.trans count)
  obtain ⟨past, keeps, kept⟩ :=
    fires.kept (by decide : 0 < 100) lists quiet (Bus.keeps_create 100)
  have same : news.sent = ⟨.displayDraw, "display", drawEvent 1 0 1 true⟩ := by
    rw [keeps.history, map_rtake, kept] at history
    exact List.singleton_inj.mp history
  have type : news.type = .displayDraw := congrArg News.type same
  rw [TellsDraw, payloads, List.filterMap_cons, News.payload?, if_pos type] at tells
  have placed := congrArg (fun news : News => news.payload) same
  rw [News.sent, List.singleton_inj.mp tells] at placed
  exact absurd (drawEvent_inj.mp placed).1 (by decide)

end System
end ChipEight
