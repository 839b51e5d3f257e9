import ChipEight.Proofs.Peripherals
/-! # Requests to the parts

A request to one part of a machine changes that part and no other: whatever a new memory leaves true
of the machine, a request to the memory leaves true (`MemoryRequest.keeps`), and so on for each
part.  A request to the processor leaves true what instructions do (`ProcessorRequest.keeps`). -/

namespace ChipEight

namespace Running

variable {Q : Machine → Prop} {α : Type}

/-- A request that keeps a property of the machine. -/
def KeepsMachine (Q : Machine → Prop) (run : Running α) : Prop := Keeps (fun s => Q s.machine) run

theorem keeps_machine {next : Machine → Running α} (rest : ∀ m, Q m → KeepsMachine Q (next m)) :
    KeepsMachine Q (machine >>= next) := fun h holds => rest h.system.machine holds h holds

theorem keeps_note (records : List Record) : KeepsMachine Q (note records) := fun _ holds => holds

theorem keeps_put {m : Machine} (holds : Q m) (reply : Reply) :
    KeepsMachine Q (do setMachine m; return reply) := fun _ _ => holds

/-- An instruction that was asked for directly. -/
theorem keeps_direct {after : Machine} (holds : Q after) (lines : Journal → Journal)
    (result : Except Failure StepReport) (reply : StepReport → α) :
    KeepsMachine Q (do
      let o ← observers
      setObservers { o with journal := lines o.journal }
      setMachine after
      let r ← ofExcept result
      noticeDirect false r
      return reply r) := by
  have rest : KeepsMachine Q (do
      let r ← ofExcept result
      noticeDirect false r
      return reply r) := keeps_ofExcept fun _ _ _ holds => holds
  exact fun h _ => rest { h with system := { h.system with
    machine := after
    observers := { h.system.observers with journal := lines h.system.observers.journal } } } holds

end Running

open Running

variable {Q : Machine → Prop}

theorem MemoryRequest.keeps (free : ∀ {m} memory, Q m → Q { m with memory })
    (q : MemoryRequest) : KeepsMachine Q q.run := by
  refine keeps_machine fun m holds => ?_
  have put (memory : Memory) (reply : Reply) :
      KeepsMachine Q (do setMachine { m with memory }; return reply) :=
    keeps_put (free memory holds) reply
  cases q with
  | read address | readWord address => exact keeps_ofFault fun _ _ => keeps_pure _
  | write address value | writeBlock address data => exact keeps_ofFault fun _ _ => put _ _
  | loadRom program =>
    exact keeps_ofFault fun _ _ => keeps_bind (keeps_note _) fun _ => put _ _
  | glyphAddress digit => exact keeps_pure _
  | dump start length => exact keeps_ofExcept fun _ _ => keeps_pure _
  | reset => exact keeps_bind (keeps_note _) fun _ => put _ _

theorem RegistersRequest.keeps (free : ∀ {m} registers, Q m → Q { m with registers })
    (q : RegistersRequest) : KeepsMachine Q q.run := by
  refine keeps_machine fun m holds => ?_
  have put (registers : Registers) (reply : Reply) :
      KeepsMachine Q (do setMachine { m with registers }; return reply) :=
    keeps_put (free registers holds) reply
  cases q with
  | push address | pop => exact keeps_ofFault fun _ _ => put _ _
  | poke position value => exact keeps_ofExcept fun _ _ => put _ _
  | _ => exact put _ _

theorem TimersRequest.keeps (free : ∀ {m} timers, Q m → Q { m with timers })
    (q : TimersRequest) : KeepsMachine Q q.run := by
  refine keeps_machine fun m holds => ?_
  have put (timers : Timers) (reply : Reply) :
      KeepsMachine Q (do setMachine { m with timers }; return reply) :=
    keeps_put (free timers holds) reply
  cases q with
  | tick => exact keeps_bind (keeps_note _) fun _ => put _ _
  | update elapsed =>
    refine keeps_bind (fun _ _ => free _ holds) fun _ => ?_
    exact keeps_ofExcept fun _ _ => keeps_bind (keeps_note _) fun _ => keeps_pure _
  | _ => exact put _ _

theorem KeypadRequest.keeps (free : ∀ {m} keypad, Q m → Q { m with keypad })
    (q : KeypadRequest) : KeepsMachine Q q.run := by
  refine keeps_machine fun m holds => ?_
  have put (keypad : Keypad) (reply : Reply) :
      KeepsMachine Q (do setMachine { m with keypad }; return reply) :=
    keeps_put (free keypad holds) reply
  cases q with
  | press key | release key | setKeys states =>
    exact keeps_ofExcept fun _ _ => keeps_bind (keeps_note _) fun _ => put _ _
  | isPressed number => exact keeps_pure _
  | waitForKey => exact keeps_bind (keeps_note _) fun _ => put _ _
  | reset => exact put _ _

/-- A request to the display leaves it dirty where it changes it, but for the one that says it is
clean. -/
theorem DisplayRequest.keeps {q : DisplayRequest}
    (free : ∀ {m} display, Q m → display.dirty = true ∨ q = .markClean → Q { m with display }) :
    KeepsMachine Q q.run := by
  refine keeps_machine fun m holds => ?_
  have put (display : Display) (reply : Reply) (cause : display.dirty = true ∨ q = .markClean) :
      KeepsMachine Q (do setMachine { m with display }; return reply) :=
    keeps_put (free display holds cause) reply
  cases q with
  | clear | reset => exact put _ _ (.inl rfl)
  | drawSprite x y sprite =>
    exact keeps_ofExcept fun (_, _) drawn => put _ _ (.inl (Display.drawSprite_dirty drawn))
  | getPixel x y => exact keeps_ofExcept fun _ _ => keeps_pure _
  | markClean => exact put _ _ (.inr rfl)
  | toAscii on off => exact keeps_pure _

theorem ProcessorRequest.keeps (step : ∀ {m : Machine}, Q m → Q m.step.1)
    (execute : ∀ {m : Machine} i address, Q m → Q (m.execute i address).1)
    (reset : ∀ {m : Machine}, Q m → Q m.resetProcessor) (q : ProcessorRequest) :
    KeepsMachine Q (q.run false) := by
  refine keeps_machine fun m holds => ?_
  cases q with
  | step =>
    refine keeps_bind (keeps_machine fun m holds => ?_) fun _ => keeps_pure _
    exact keeps_direct (step holds) m.journalStep _ id
  | execute i address => exact keeps_direct (execute i _ holds) (m.journalExecute i _) _ _
  | fetch => exact keeps_ofExcept fun _ _ => keeps_pure _
  | reset => exact keeps_bind (keeps_note _) fun _ => keeps_put (reset holds) _

end ChipEight
