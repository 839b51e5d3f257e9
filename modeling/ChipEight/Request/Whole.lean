import ChipEight.Request.Parts
/-!
Requests to a whole system, and the lines of text that follow a program step by step.
-/

namespace ChipEight

open Running

inductive SystemRequest where
  | loadProgram (program : List UInt8)
  | loadRom (path : String)
  | reset
  | step
  | updateTimers (elapsed : Number)
  | runFor (elapsed : Number)
  | runCycles (cycles : Int)
  | pressKey (key : Datum)
  | releaseKey (key : Datum)
  | setKeys (states : List Bool)
  | pressHostKey (name : Datum)
  | releaseHostKey (name : Datum)
  deriving Repr

def SystemRequest.run : SystemRequest → Running Reply
  | loadProgram program => do onSystem (·.loadProgram program); return .none
  | loadRom path => do
    let files := (← get).files
    onSystem (·.loadRom files path)
    return .none
  | reset => do onSystem System.reset; return .none
  | step => return .data (← onSystem System.step).describe
  | updateTimers elapsed => return .int (← onSystem (·.updateTimers elapsed))
  | runFor elapsed => return .reports (← onSystem (·.runFor elapsed))
  | runCycles cycles => return .reports (← onSystem (·.runCycles cycles))
  | pressKey key => do onSystem (·.pressKey key); return .none
  | releaseKey key => do onSystem (·.releaseKey key); return .none
  | setKeys states => do onSystem (·.setKeys states); return .none
  | pressHostKey name => return .bool (← onSystem (·.pressHostKey name))
  | releaseHostKey name => return .bool (← onSystem (·.releaseHostKey name))

/-- The lines of a number of steps, and the fault that ended them early if there was one. -/
def follow (alone : Bool) : Nat → Running (List String × Option Fault)
  | 0 => return ([], none)
  | n + 1 => do
    let result ← ExceptT.lift (if alone then directStep alone else onSystem System.step).run
    match result with
    | .ok r =>
      let line := r.line (← machine)
      let (lines, fault) ← follow alone n
      return (line :: lines, fault)
    | .error (.fault f) => return ([], some f)
    | .error e => throw e

/-- A value of a system that can be asked for by name. -/
def System.value? (s : System) (name : String) : Option Reply :=
  let m := s.machine
  let known : List (String × (Unit → Reply)) := [
    ("memory.size", fun _ => .int m.memory.size),
    ("memory.program_start", fun _ => .int m.memory.programStart),
    ("memory.rom_size", fun _ => .int m.memory.romSize),
    ("memory.ram", fun _ => .bytes m.memory.ram.toList),
    ("registers.get_state", fun _ => .data (.record m.registers.fields)),
    ("registers.SP", fun _ => .int m.registers.depth),
    ("registers.VF", fun _ => .int m.registers.flag.toNat),
    ("registers.V", fun _ => .bytes m.registers.v.toList),
    ("registers.I", fun _ => .int m.registers.index),
    ("registers.PC", fun _ => .int m.registers.pc),
    ("registers.stack", fun _ => .data m.registers.stackDatum),
    ("registers.stack_depth", fun _ => .int m.registers.stackDepth),
    ("registers.program_start", fun _ => .int m.registers.programStart),
    ("timers.get_state", fun _ => .data m.timers.describe),
    ("timers.tone_active", fun _ => .bool m.timers.toneActive),
    ("timers.rate_hz", fun _ => .data (.number m.timers.rate)),
    ("timers.interval", fun _ => .data (.number (.float m.timers.interval))),
    ("timers.delay", fun _ => .int m.timers.delay.toNat),
    ("timers.sound", fun _ => .int m.timers.sound.toNat),
    ("timers.ticks", fun _ => .int m.timers.ticks),
    ("keypad.get_state", fun _ => .data m.keypad.describe),
    ("keypad.awaiting_key", fun _ => .bool (m.keypad.state == .awaiting)),
    ("keypad.latched_key", fun _ => .data m.keypad.latchDatum),
    ("keypad.keys", fun _ =>
      .data (.list ((List.finRange 16).map fun k => .bool (m.keypad.isDown k)))),
    ("keypad.state", fun _ => .text m.keypad.state.name),
    ("display.get_state", fun _ => .data m.display.describe),
    ("display.get_frame_buffer", fun _ => .data m.display.grid.describe),
    ("display.width", fun _ => .int m.display.grid.width),
    ("display.height", fun _ => .int m.display.grid.height),
    ("display.dirty", fun _ => .bool m.display.dirty),
    ("display.draw_count", fun _ => .int m.display.draws),
    ("display.clear_count", fun _ => .int m.display.clears),
    ("cpu.get_state", fun _ => .data m.describe),
    ("cpu.cycles", fun _ => .int m.cycles),
    ("cpu.unknown_count", fun _ => .int m.unknownCount),
    ("system.get_system_state", fun _ => .data s.describe),
    ("system.get_frame_buffer", fun _ => .data m.display.grid.describe),
    ("system.tone_active", fun _ => .bool s.toneActive),
    ("system.needs_redraw", fun _ => .bool s.needsRedraw),
    ("system.clock_hz", fun _ => .data (.number s.clock)),
    ("system.cycle_count", fun _ => .int s.cycleCount),
    ("system.rom_name", fun _ => .text s.romName),
    ("system.rom_loaded", fun _ => .bool s.romLoaded),
    ("system.program", fun _ => .bytes s.program),
    ("system.keymap", fun _ => .data (.dict s.keymap))]
  (known.lookup name).map fun value => value ()

end ChipEight
