import ChipEight.Proofs.Dispatch
import ChipEight.Proofs.Retention
/-! # The history of events

A bus keeps the events that pass its filter, up to a limit.  The filter can change at any time, the
history can be cleared, observers can publish events and clear the history in the middle of a
delivery, and an event that is consumed is so wherever it is kept.  A log of what is done, in the
order in which it is done, tells what becomes of the records of a bus (`Bus.makes_records`), and what
a history without a limit would hold; the history of the bus is the end of it
(`Bus.history_kept`). -/

namespace ChipEight

/-- What bears upon a history of events. -/
inductive Deed where
  | sent (event : Event)
  | consumed (serial : Nat)
  | filtered (types : List EventType)
  | cleared

/-- The filter in force, and all events that have passed since the history was last cleared. -/
structure Past where
  filter : List EventType := []
  events : List Event := []

namespace Past

def after (past : Past) : Deed → Past
  | .sent event =>
    if past.filter = [] ∨ event.type ∈ past.filter then
      { past with events := past.events ++ [event] }
    else past
  | .consumed serial =>
    { past with events := past.events.map fun e =>
        if e.serial = serial then { e with handled := true } else e }
  | .filtered types => { past with filter := types }
  | .cleared => { past with events := [] }

end Past

namespace Bus

/-! ## What is done -/

/-- The deeds when an event is sent, if these are those of its way along the lines. -/
def triggerDeeds (way : Event → Delivery → List Deed) (b : Bus) (j : Journal) (event : Event) :
    List Deed :=
  .sent event ::
    if b.lines.any (·.type == event.type) then
      way event { bus := b.record event, journal := j, consumed := event.handled }
    else []

def reactDeeds (way : Event → Delivery → List Deed) (event : Event) (name : String)
    (d : Delivery) : Reaction → List Deed
  | .consume | .consumeAndFail => [.consumed event.serial]
  | .publish type => triggerDeeds way d.bus d.journal (d.bus.newEvent type name .null)
  | .clearHistory => [.cleared]
  | _ => []

def visitDeeds (way : Event → Delivery → List Deed) (event : Event) (d : Delivery) :
    Observer → List Deed
  | .scripted name =>
    reactDeeds way event name (d.mark (name ++ ":" ++ event.type.name)) (d.bus.reactionOf name)
  | _ => []

def deliverDeeds : Nat → List Priority → Nat → Event → Delivery → List Deed
  | 0, _, _, _, _ => []
  | _ + 1, [], _, _, _ => []
  | fuel + 1, priority :: rest, position, event, d =>
    let d := { d with bus := d.bus.touch event.type priority }
    match (d.bus.line event.type priority)[position]? with
    | none => if d.consumed then [] else deliverDeeds fuel rest 0 event d
    | some observer =>
      let next := visit (deliver fuel Priority.callOrder 0) event d observer
      visitDeeds (deliverDeeds fuel Priority.callOrder 0) event d observer ++
        if next.consumed then [] else deliverDeeds fuel (priority :: rest) (position + 1) event next

def Call.deeds : Call → Bus × Journal → List Deed
  | .trigger event, (b, j) =>
    triggerDeeds (deliverDeeds (b.observerCount + Priority.callOrder.length + 1 + patience)
      Priority.callOrder 0) b j event
  | .setFilter types, _ => [.filtered types]
  | .clear, _ => [.cleared]
  | _, _ => []

/-- Everything that is done by calls, in the order in which it is done. -/
def deedsOf : Bus × Journal → List Call → List Deed
  | _, [] => []
  | s, call :: calls => call.deeds s ++ deedsOf (call.make s) calls

/-- What a history without a limit would hold after calls to a new bus. -/
def pastOf (limit : Int) (j : Journal) (calls : List Call) : Past :=
  (deedsOf (create limit, j) calls).foldl Past.after {}

variable {d : Delivery}

theorem Quiet.visit (quiet : d.bus.Quiet) (run : Event → Delivery → Delivery) (event : Event)
    (observer : Observer) : (visit run event d observer).bus.Quiet := by
  cases observer with
  | reporter serial level => exact quiet.congr rfl
  | watcher => exact quiet.congr rfl
  | scripted name =>
    have plain := quiet name
    rw [Bus.visit]
    cases reacts : d.bus.reactionOf name with
    | watch | consume | fail | consumeAndFail => exact quiet.congr rfl
    | _ =>
      rw [reacts] at plain
      cases plain

theorem visitDeeds_of_quiet (quiet : d.bus.Quiet) (way : Event → Delivery → List Deed)
    (event : Event) (observer : Observer) :
    ∀ deed ∈ visitDeeds way event d observer, deed = .consumed event.serial := by
  cases observer with
  | reporter serial level => exact fun _ mem => absurd mem List.not_mem_nil
  | watcher => exact fun _ mem => absurd mem List.not_mem_nil
  | scripted name =>
    have plain := quiet name
    rw [visitDeeds]
    cases reacts : d.bus.reactionOf name with
    | watch | fail => exact fun _ mem => absurd mem List.not_mem_nil
    | consume | consumeAndFail => exact fun _ mem => List.mem_singleton.mp mem
    | _ =>
      rw [reacts] at plain
      cases plain

/-- Where no observer calls the bus, an event on its way does nothing but to be consumed. -/
theorem deliverDeeds_of_quiet (quiet : d.bus.Quiet) (fuel : Nat) (priorities : List Priority)
    (position : Nat) (event : Event) :
    ∀ deed ∈ deliverDeeds fuel priorities position event d, deed = .consumed event.serial := by
  induction fuel generalizing priorities position d with
  | zero => exact fun _ mem => absurd mem List.not_mem_nil
  | succ fuel ih =>
    cases priorities with
    | nil => exact fun _ mem => absurd mem List.not_mem_nil
    | cons priority rest =>
      have touched := quiet.relined (d.bus.touch_lines event.type priority)
      rw [deliverDeeds]
      dsimp only
      cases ((d.bus.touch event.type priority).line event.type priority)[position]? with
      | none =>
        dsimp only
        split
        · exact fun _ mem => absurd mem List.not_mem_nil
        · exact ih touched rest 0
      | some observer =>
        intro deed mem
        rcases List.mem_append.mp mem with mem | mem
        · exact visitDeeds_of_quiet touched _ event observer deed mem
        · split at mem
          · cases mem
          · exact ih (touched.visit _ event observer) (priority :: rest) (position + 1) deed mem

/-! ## What becomes of the records -/

/-- What a deed does to a bus. -/
def done (b : Bus) : Deed → Bus
  | .sent event => b.record event
  | .consumed serial => b.markHandled serial
  | .filtered types => b.setFilter types
  | .cleared => b.clearHistory

/-- Two buses have recorded the same, and will record the same. -/
structure SameRecords (b b' : Bus) : Prop where
  limit : b'.limit = b.limit
  filter : b'.filter = b.filter
  history : b'.history = b.history
  triggered : b'.stats.triggered = b.stats.triggered

variable {b b' : Bus}

theorem SameRecords.refl (b : Bus) : SameRecords b b := ⟨rfl, rfl, rfl, rfl⟩

theorem SameRecords.trans {b'' : Bus} (first : SameRecords b b') (second : SameRecords b' b'') :
    SameRecords b b'' :=
  ⟨second.limit.trans first.limit, second.filter.trans first.filter,
    second.history.trans first.history, second.triggered.trans first.triggered⟩

/-- The same deed leaves the same records. -/
theorem SameRecords.done (same : SameRecords b b') (deed : Deed) :
    SameRecords (b.done deed) (b'.done deed) := by
  obtain ⟨limit, filter, history, triggered⟩ := same
  cases deed with
  | sent event =>
    refine ⟨limit, filter, ?_, congrArg (· + 1) triggered⟩
    rw [Bus.done, Bus.done, record, record, limit, filter, history]
  | consumed serial =>
    refine ⟨limit, filter, ?_, triggered⟩
    rw [Bus.done, Bus.done, markHandled, markHandled, history]
  | filtered types => exact ⟨limit, rfl, history, triggered⟩
  | cleared => exact ⟨limit, filter, rfl, triggered⟩

theorem SameRecords.foldl (same : SameRecords b b') (deeds : List Deed) :
    SameRecords (deeds.foldl Bus.done b) (deeds.foldl Bus.done b') := by
  induction deeds generalizing b b' with
  | nil => exact same
  | cons deed deeds ih => exact ih (same.done deed)

theorem sameRecords_relined (relined : ∃ lines, b' = { b with lines }) : SameRecords b b' := by
  obtain ⟨_, rfl⟩ := relined
  exact ⟨rfl, rfl, rfl, rfl⟩

theorem sameRecords_learn (b : Bus) (name : String) (reaction : Reaction) :
    SameRecords b (b.learn name reaction) := by
  rw [learn_eq]
  exact ⟨rfl, rfl, rfl, rfl⟩

/-- A way that an event takes, with what is done on it. -/
def Logs (run : Event → Delivery → Delivery) (way : Event → Delivery → List Deed) : Prop :=
  ∀ event d, SameRecords ((way event d).foldl done d.bus) (run event d).bus

variable {run : Event → Delivery → Delivery} {way : Event → Delivery → List Deed}

theorem triggerWith_records (logs : Logs run way) (b : Bus) (j : Journal) (event : Event) :
    SameRecords ((triggerDeeds way b j event).foldl done b) (triggerWith run b j event).2.bus := by
  rw [triggerDeeds, triggerWith, List.foldl_cons]
  dsimp only
  split
  · have sent := logs event ⟨b.record event, j, event.handled, false⟩
    split
    · exact ⟨sent.limit, sent.filter, sent.history, sent.triggered⟩
    · exact sent
  · exact .refl _

theorem react_records (logs : Logs run way) (event : Event) (name : String) (d : Delivery)
    (reaction : Reaction) : SameRecords ((reactDeeds way event name d reaction).foldl done d.bus)
      (react run event name d reaction).bus := by
  -- Whoever takes the event is counted, which no record tells.
  have counted : ∀ {b : Bus} {d : Delivery}, SameRecords b d.bus → SameRecords b d.taken.bus :=
    fun same => ⟨same.limit, same.filter, same.history, same.triggered⟩
  cases reaction with
  | watch => exact counted (.refl _)
  | consume => exact counted (.refl _)
  | fail => exact .refl _
  | consumeAndFail => exact .refl _
  | dismiss other =>
    exact counted ((sameRecords_learn _ other .watch).trans
      (sameRecords_relined (dismiss_lines _ event.type _)))
  | enlist other priority reaction =>
    exact counted ((sameRecords_learn _ other reaction).trans
      (sameRecords_relined (enlist_lines _ event.type _ priority)))
  | publish type => exact counted (triggerWith_records logs d.bus d.journal _)
  | clearHistory => exact counted (.refl _)

theorem visit_records (logs : Logs run way) (event : Event) (d : Delivery) (observer : Observer) :
    SameRecords ((visitDeeds way event d observer).foldl done d.bus)
      (visit run event d observer).bus := by
  cases observer with
  | scripted name => exact react_records logs event name (d.mark _) _
  | reporter serial level => exact ⟨rfl, rfl, rfl, rfl⟩
  | watcher => exact ⟨rfl, rfl, rfl, rfl⟩

/-- **A delivery**, with the deliveries of all events that observers publish meanwhile. -/
theorem logs_deliver (fuel : Nat) (priorities : List Priority) (position : Nat) :
    Logs (deliver fuel priorities position) (deliverDeeds fuel priorities position) := by
  induction fuel generalizing priorities position with
  | zero => exact fun _ _ => .refl _
  | succ fuel ih =>
    cases priorities with
    | nil => exact fun _ _ => .refl _
    | cons priority rest =>
      intro event d
      have touched : SameRecords d.bus (d.bus.touch event.type priority) :=
        sameRecords_relined (d.bus.touch_lines event.type priority)
      rw [deliver, deliverDeeds]
      dsimp only
      cases ((d.bus.touch event.type priority).line event.type priority)[position]? with
      | none =>
        dsimp only
        split
        · exact touched
        · exact (touched.foldl _).trans
            (ih rest 0 event { d with bus := d.bus.touch event.type priority })
      | some observer =>
        have visited := (touched.foldl _).trans (visit_records (ih Priority.callOrder 0) event
          { d with bus := d.bus.touch event.type priority } observer)
        dsimp only
        rw [List.foldl_append]
        split
        · exact visited
        · exact (visited.foldl _).trans (ih (priority :: rest) (position + 1) event _)

/-- **One call.** -/
theorem make_records (b : Bus) (j : Journal) (call : Call) :
    SameRecords ((call.deeds (b, j)).foldl done b) (call.make (b, j)).1 := by
  cases call with
  | enlist type observer priority =>
    exact sameRecords_relined (b.enlist_lines type observer priority)
  | dismiss type observer => exact sameRecords_relined (b.dismiss_lines type observer)
  | trigger event => exact triggerWith_records (logs_deliver _ Priority.callOrder 0) b j event
  | setFilter types => exact .refl _
  | clear => exact .refl _
  | train reactions => exact ⟨rfl, rfl, rfl, rfl⟩

/-- **Calls leave the records that their deeds leave.** -/
theorem makes_records (b : Bus) (j : Journal) (calls : List Call) :
    SameRecords ((deedsOf (b, j) calls).foldl done b)
      (calls.foldl (fun s call => call.make s) (b, j)).1 := by
  induction calls generalizing b j with
  | nil => exact .refl b
  | cons call calls ih =>
    rw [deedsOf, List.foldl_append, List.foldl_cons]
    exact ((make_records b j call).foldl _).trans (ih (call.make (b, j)).1 (call.make (b, j)).2)

/-! ## What is kept -/

variable {limit : Nat} {past : Past}

/-- The history is the end of the past. -/
structure Keeps (limit : Nat) (past : Past) (b : Bus) : Prop where
  bound : b.limit = limit
  filter : b.filter = past.filter
  history : b.history = past.events.rtake limit

theorem keeps_create (limit : Nat) : Keeps limit {} (create limit) :=
  ⟨rfl, rfl, (List.rtake_nil limit).symm⟩

theorem Keeps.of_same (keeps : Keeps limit past b) (same : SameRecords b b') :
    Keeps limit past b' :=
  ⟨same.limit.trans keeps.bound, same.filter.trans keeps.filter,
    same.history.trans keeps.history⟩

theorem Keeps.record (keeps : Keeps limit past b) (pos : 0 < limit) (event : Event) :
    Keeps limit (past.after (.sent event)) (b.record event) := by
  obtain ⟨limits, filters, history⟩ := keeps
  have passes : (b.filter.isEmpty || b.filter.contains event.type) = true ↔
      past.filter = [] ∨ event.type ∈ past.filter := by
    rw [filters, Bool.or_eq_true, List.isEmpty_iff, List.contains_iff_mem]
  by_cases pass : past.filter = [] ∨ event.type ∈ past.filter
  · rw [Past.after, if_pos pass]
    refine ⟨limits, filters, ?_⟩
    rw [Bus.record, limits, history]
    dsimp only
    rw [if_pos (passes.mpr pass), retain_rtake_concat pos]
  · rw [Past.after, if_neg pass]
    refine ⟨limits, filters, ?_⟩
    rw [Bus.record, ← history]
    dsimp only
    rw [if_neg fun through => pass (passes.mp through)]

/-- **One deed** is remembered as it is recorded. -/
theorem Keeps.done (keeps : Keeps limit past b) (pos : 0 < limit) (deed : Deed) :
    Keeps limit (past.after deed) (b.done deed) := by
  cases deed with
  | sent event => exact keeps.record pos event
  | consumed serial =>
    refine ⟨keeps.bound, keeps.filter, ?_⟩
    rw [Bus.done, Bus.markHandled, keeps.history, Past.after, ← map_rtake]
    simp only [beq_iff_eq]
  | filtered types => exact ⟨keeps.bound, rfl, keeps.history⟩
  | cleared => exact ⟨keeps.bound, keeps.filter, (List.rtake_nil limit).symm⟩

theorem Keeps.foldl (keeps : Keeps limit past b) (pos : 0 < limit) (deeds : List Deed) :
    Keeps limit (deeds.foldl Past.after past) (deeds.foldl Bus.done b) := by
  induction deeds generalizing past b with
  | nil => exact keeps
  | cons deed deeds ih => exact ih (keeps.done pos deed)

/-- **The history is the end of the past**: of all events that were sent since it was last cleared,
whoever sent them, and that passed the filter of their time, it holds the last ones in their order,
as many as its limit says.  Asked for a type it gives those of the type, and a new filter takes
nothing away. -/
theorem history_kept {limit : Nat} (pos : 0 < limit) (j : Journal) (calls : List Call) :
    let b := (after limit j calls).1
    b.history = (pastOf limit j calls).events.rtake limit ∧
    b.eventsOf none = b.history ∧
    (∀ type, b.eventsOf (some type) = b.history.filter (·.type = type)) ∧
    ∀ types, (after limit j (calls ++ [.setFilter types])).1.history = b.history := by
  have kept := ((keeps_create limit).foldl pos _).of_same (makes_records (create limit) j calls)
  refine ⟨kept.history, rfl, fun type => ?_, fun types => ?_⟩
  · rw [eventsOf]
    exact List.filter_congr fun e _ => rfl
  · rw [after, List.foldl_append]
    rfl

/-- A bus that keeps two events, with an observer that answers a key press with an event of its own
and one that consumes what it gets. -/
def echoes : List Call :=
  [.train [("echo", .publish .custom), ("taker", .consume)],
    .enlist .keyPress (.scripted "echo") .high, .enlist .keyPress (.scripted "taker") .low,
    .trigger ⟨0, .keyPress, "keypad", .null, false⟩, .clear,
    .trigger ⟨2, .keyPress, "keypad", .null, false⟩, .setFilter [.keyPress],
    .trigger ⟨4, .keyPress, "keypad", .null, false⟩]

theorem history_kept_echoes :
    0 < 2 ∧ ((after 2 {} echoes).1.history.map fun e => (e.serial, e.type, e.handled)) =
      [(3, .custom, false), (4, .keyPress, true)] := by
  have two : 0 < 2 := by decide
  obtain ⟨kept, -⟩ := history_kept two {} echoes
  refine ⟨two, (congrArg (List.map _) kept).trans ?_⟩
  decide

end Bus
end ChipEight
