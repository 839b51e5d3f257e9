import ChipEight.Proofs.Lines
import Mathlib.Data.List.Perm.Subperm
/-! # Dispatch of events

An event visits the observers of its type, line by line; an observer may consume it, or fail, or
both.  What a bus does with an event is told by the registrations that are in force
(`Bus.events_dispatched`): whatever was registered and let out before, exactly their observers are
called, the critical ones first and each line in the order in which it formed, up to the first one
behind which the event is consumed; a failure concerns nobody else; and the three counts of the bus
grow by what has happened.  An event that comes consumed is none of the later lines' business
(`Bus.consumed_event_passes`). -/

namespace ChipEight

/-! ## How observers react -/

namespace Reaction

/-- The reaction leaves the bus alone. -/
def plain : Reaction → Bool
  | .watch | .consume | .fail | .consumeAndFail => true
  | _ => false

/-- The reaction does not fail. -/
def returns : Reaction → Bool
  | .fail | .consumeAndFail => false
  | _ => true

/-- Behind the reaction the event is consumed, also where it fails. -/
def consumes : Reaction → Bool
  | .consume | .consumeAndFail => true
  | _ => false

end Reaction

/-- The items up to the first one that stops. -/
def upTo {α : Type} (stops : α → Bool) : List α → List α
  | [] => []
  | x :: rest => if stops x then [x] else x :: upTo stops rest

namespace Observer

/-- How an observer reacts, where some react in their own way. -/
def reaction (reactions : List (String × Reaction)) : Observer → Reaction
  | .scripted name => (reactions.lookup name).getD .watch
  | _ => .watch

def returns (reactions : List (String × Reaction)) (o : Observer) : Bool :=
  (o.reaction reactions).returns

def consumes (reactions : List (String × Reaction)) (o : Observer) : Bool :=
  (o.reaction reactions).consumes

/-- What an observer that is called with an event adds to the journal. -/
def speaks (reactions : List (String × Reaction)) (event : Event) (j : Journal) :
    Observer → Journal
  | .scripted name =>
    let j := j.mark (name ++ ":" ++ event.type.name)
    if returns reactions (.scripted name) then j
    else j.note .error .events fun _ => s!"Error in event handler for {event.type.name}: boom {name}"
  | .reporter _ level => j.note level .events fun _ => "Event: " ++ event.text
  | .watcher => j.mark event.type.name

end Observer

namespace Registration

variable {regs : List Registration}

/-- The observers of a type in the order in which an event visits them. -/
def due (regs : List Registration) (type : EventType) : List Observer :=
  [Priority.critical, .high, .normal, .low].flatMap (inLine regs type)

theorem Once.nodup_due (once : Once regs) (type : EventType) : (due regs type).Nodup := by
  rw [due, List.nodup_flatMap]
  refine ⟨fun priority _ => once.nodup_inLine type priority, ?_⟩
  have apart : ∀ priority priority', priority ≠ priority' →
      (inLine regs type priority).Disjoint (inLine regs type priority') :=
    fun _ _ other o mem mem' => other (once.priority_eq (mem_inLine.mp mem) (mem_inLine.mp mem'))
  have distinct : [Priority.critical, .high, .normal, .low].Nodup := by decide
  exact distinct.imp fun other => apart _ _ other

end Registration

namespace Bus

open Registration

variable {b : Bus} {j : Journal} {regs : List Registration} {event : Event} {d r u : Delivery}
  {xs ys : List Observer} {observer : Observer}

theorem Lists.congr {b' : Bus} (lists : b.Lists regs) (lines : b'.lines = b.lines) :
    b'.Lists regs := by
  obtain ⟨tidy, once, line⟩ := lists
  refine ⟨?_, once, fun type priority => ?_⟩
  · rwa [Tidy, lines]
  · rw [← line, Bus.line, Bus.line, lines]

theorem Lists.touch (lists : b.Lists regs) (type : EventType) (priority : Priority) :
    (b.touch type priority).Lists regs :=
  ⟨lists.tidy.touch, lists.once, fun type' priority' => by
    rw [lists.tidy.line_touch, lists.line]⟩

/-- No observer calls the bus. -/
def Quiet (b : Bus) : Prop := ∀ name, (b.reactionOf name).plain = true

theorem Quiet.congr {b' : Bus} (quiet : b.Quiet) (reactions : b'.reactions = b.reactions) :
    b'.Quiet := by
  intro name
  rw [reactionOf, reactions]
  exact quiet name

theorem Quiet.relined {b' : Bus} (quiet : b.Quiet) (relined : ∃ lines, b' = { b with lines }) :
    b'.Quiet := by
  obtain ⟨_, rfl⟩ := relined
  exact quiet.congr rfl

/-! ## Calling observers -/

/-- What has become of a delivery when observers were called, one after the other. -/
structure Served (regs : List Registration) (event : Event) (d : Delivery)
    (called : List Observer) (r : Delivery) : Prop where
  lists : r.bus.Lists regs
  reactions : r.bus.reactions = d.bus.reactions
  journal : r.journal = called.foldl (Observer.speaks d.bus.reactions event) d.journal
  consumed : r.consumed = (d.consumed || called.any (Observer.consumes d.bus.reactions))
  reached : r.reached = (d.reached || called.any (Observer.returns d.bus.reactions))
  stats : r.bus.stats =
    { d.bus.stats with
      calls := d.bus.stats.calls + called.countP (Observer.returns d.bus.reactions) }

theorem Served.nobody (lists : d.bus.Lists regs) : Served regs event d [] d where
  lists := lists
  reactions := rfl
  journal := rfl
  consumed := (Bool.or_false _).symm
  reached := (Bool.or_false _).symm
  stats := rfl

theorem Served.trans (first : Served regs event d xs r) (second : Served regs event r ys u) :
    Served regs event d (xs ++ ys) u where
  lists := second.lists
  reactions := second.reactions.trans first.reactions
  journal := by rw [second.journal, first.journal, first.reactions, List.foldl_append]
  consumed := by
    rw [second.consumed, first.consumed, first.reactions, List.any_append, Bool.or_assoc]
  reached := by rw [second.reached, first.reached, first.reactions, List.any_append, Bool.or_assoc]
  stats := by
    rw [second.stats, first.stats, first.reactions, List.countP_append, Nat.add_assoc]

theorem Served.touch (lists : d.bus.Lists regs) (type : EventType) (priority : Priority) :
    Served regs event d [] { d with bus := d.bus.touch type priority } := by
  obtain ⟨lines, touched⟩ := d.bus.touch_lines type priority
  refine ⟨lists.touch type priority, ?_, rfl, (Bool.or_false _).symm, (Bool.or_false _).symm, ?_⟩
  · rw [touched]
  · rw [touched]
    rfl

/-- **One observer's turn**, if it does not call the bus. -/
theorem served_visit (run : Event → Delivery → Delivery) (event : Event)
    (lists : d.bus.Lists regs) (quiet : d.bus.Quiet) (observer : Observer) :
    Served regs event d [observer] (visit run event d observer) := by
  cases observer with
  | reporter serial level =>
    exact ⟨lists.congr rfl, rfl, rfl, (Bool.or_false _).symm, (Bool.or_true _).symm, rfl⟩
  | watcher => exact ⟨lists.congr rfl, rfl, rfl, (Bool.or_false _).symm, (Bool.or_true _).symm, rfl⟩
  | scripted name =>
    have plain := quiet name
    have returns : Observer.returns d.bus.reactions (.scripted name) =
      (d.bus.reactionOf name).returns := rfl
    have consumes : Observer.consumes d.bus.reactions (.scripted name) =
      (d.bus.reactionOf name).consumes := rfl
    rw [visit]
    cases reacts : d.bus.reactionOf name with
    | watch | consume | fail | consumeAndFail =>
      rw [reacts] at returns consumes
      refine ⟨lists.congr rfl, rfl, ?_, ?_, ?_, ?_⟩ <;>
        simp [react, Delivery.taken, Delivery.consume, Delivery.failed, Delivery.mark, markHandled,
          Observer.speaks, returns, consumes, Reaction.returns, Reaction.consumes]
    | _ =>
      rw [reacts] at plain
      cases plain

/-! ## Walking along the lines -/

/-- The observers of a type that are still to be called, from a position in the first line on. -/
def ahead (regs : List Registration) (type : EventType) : List Priority → Nat → List Observer
  | [], _ => []
  | priority :: rest, position =>
    (inLine regs type priority).drop position ++ rest.flatMap (inLine regs type)

theorem ahead_zero (regs : List Registration) (type : EventType) (priorities : List Priority) :
    ahead regs type priorities 0 = priorities.flatMap (inLine regs type) := by
  cases priorities <;> rfl

/-- **A delivery calls the observers ahead**, up to the one behind which the event is consumed. -/
theorem served_deliver (fuel : Nat) (priorities : List Priority) (position : Nat) (event : Event)
    (lists : d.bus.Lists regs) (quiet : d.bus.Quiet) (free : d.consumed = false)
    (patient : (ahead regs event.type priorities position).length + priorities.length ≤ fuel) :
    Served regs event d
      (upTo (Observer.consumes d.bus.reactions) (ahead regs event.type priorities position))
      (deliver fuel priorities position event d) := by
  induction fuel generalizing priorities position d with
  | zero =>
    obtain rfl : priorities = [] := List.eq_nil_of_length_eq_zero (by omega)
    exact .nobody lists
  | succ fuel ih =>
    cases priorities with
    | nil => exact .nobody lists
    | cons priority rest =>
      have touched : Served regs event d [] { d with bus := d.bus.touch event.type priority } :=
        .touch lists event.type priority
      have quiet' : (d.bus.touch event.type priority).Quiet := quiet.congr touched.reactions
      rw [deliver]
      dsimp only
      rw [touched.lists.line]
      cases next : (inLine regs event.type priority)[position]? with
      | none =>
        have beyond := List.getElem?_eq_none_iff.mp next
        have same : ahead regs event.type (priority :: rest) position =
            ahead regs event.type rest 0 := by
          rw [ahead_zero, ahead, List.drop_eq_nil_of_le beyond, List.nil_append]
        rw [same, List.length_cons] at patient
        rw [same, if_neg (Bool.not_eq_true _ ▸ free)]
        have served := ih rest 0 touched.lists quiet' free (by omega)
        rw [touched.reactions] at served
        exact touched.trans served
      | some observer =>
        obtain ⟨inside, here⟩ := List.getElem?_eq_some_iff.mp next
        have same : ahead regs event.type (priority :: rest) position =
            observer :: ahead regs event.type (priority :: rest) (position + 1) := by
          rw [ahead, ahead, List.drop_eq_getElem_cons inside, here]
          rfl
        rw [same, List.length_cons] at patient
        rw [same]
        have visited := touched.trans
          (served_visit (deliver fuel Priority.callOrder 0) event touched.lists quiet' observer)
        dsimp only
        generalize visit (deliver fuel Priority.callOrder 0) event _ observer = v at visited ⊢
        have consumed : v.consumed = observer.consumes d.bus.reactions := by
          rw [visited.consumed, free, Bool.false_or, List.nil_append, List.any_cons, List.any_nil,
            Bool.or_false]
        rw [upTo, consumed]
        split
        · exact visited
        · -- The event goes on as it came, and so the rest of the way is that of the hypothesis.
          rename_i onward
          have served := ih (priority :: rest) (position + 1) visited.lists
            (quiet.congr visited.reactions) (consumed.trans (Bool.not_eq_true _ ▸ onward)) (by omega)
          rw [visited.reactions] at served
          exact visited.trans served

/-- **An event that comes consumed** stops behind the first observer of the first line, or at its end
if nobody stands there. -/
theorem served_deliver_consumed (fuel : Nat) (priority : Priority) (rest : List Priority)
    (event : Event) (lists : d.bus.Lists regs) (quiet : d.bus.Quiet)
    (consumed : d.consumed = true) :
    Served regs event d ((inLine regs event.type priority).take 1)
      (deliver (fuel + 1) (priority :: rest) 0 event d) := by
  have touched : Served regs event d [] { d with bus := d.bus.touch event.type priority } :=
    .touch lists event.type priority
  rw [deliver]
  dsimp only
  rw [touched.lists.line]
  cases inLine regs event.type priority with
  | nil => exact (if_pos consumed).symm ▸ touched
  | cons observer others =>
    have visited := touched.trans (served_visit (deliver fuel Priority.callOrder 0) event
      touched.lists (quiet.congr touched.reactions) observer)
    rw [List.getElem?_cons_zero]
    dsimp only
    rw [if_pos (by rw [visited.consumed, consumed, Bool.true_or])]
    exact visited

theorem foldl_observers (ls : List Line) (n : Nat) :
    ls.foldl (fun n l => n + l.observers.length) n = n + (ls.flatMap Line.observers).length := by
  induction ls generalizing n with
  | nil => rfl
  | cons l ls ih => rw [List.foldl_cons, ih, List.flatMap_cons, List.length_append, Nat.add_assoc]

/-! ## Sending -/

/-- No more observers are due than stand in all lines together. -/
theorem Lists.due_le (lists : b.Lists regs) (type : EventType) :
    (due regs type).length ≤ b.observerCount := by
  rw [observerCount, foldl_observers, Nat.zero_add]
  refine ((lists.once.nodup_due type).subperm fun observer mem => ?_).length_le
  obtain ⟨priority, -, mem⟩ := List.mem_flatMap.mp mem
  rw [← lists.line] at mem
  obtain ⟨l, among, -, inside⟩ := exists_line mem
  exact List.mem_flatMap.mpr ⟨l, among, inside⟩

theorem due_eq_nil (lists : b.Lists regs) {type : EventType}
    (unheard : b.lines.any (·.type == type) = false) : due regs type = [] := by
  refine List.flatMap_eq_nil_iff.mpr fun priority _ => ?_
  rw [← lists.line]
  refine line_eq_nil fun l mem key => ?_
  have other := List.any_eq_false.mp unheard l mem
  exact other (beq_iff_eq.mpr (Prod.mk.inj key).1)

/-- What becomes of an event that is sent: these observers are called, in this order and no others.
The journal has what they say, failures included, and of a failure nothing else does. -/
structure Dispatched (b : Bus) (j : Journal) (called : List Observer) (event : Event)
    (result : Event × Delivery) : Prop where
  journal : result.2.journal = called.foldl (Observer.speaks b.reactions event) j
  handled : result.1 =
    { event with handled := event.handled || called.any (Observer.consumes b.reactions) }
  reached : result.2.reached = called.any (Observer.returns b.reactions)
  stats : result.2.bus.stats = {
    triggered := b.stats.triggered + 1
    handled := b.stats.handled + if result.2.reached then 1 else 0
    calls := b.stats.calls + called.countP (Observer.returns b.reactions) }

/-- The observers that are called with an event.  One that comes consumed gets no further than the
first critical observer, and to nobody if there is none. -/
def called (b : Bus) (regs : List Registration) (event : Event) : List Observer :=
  if event.handled then (inLine regs event.type .critical).take 1
  else upTo (Observer.consumes b.reactions) (due regs event.type)

theorem called_eq_nil (none_ : due regs event.type = []) : b.called regs event = [] := by
  rw [called]
  split
  · rw [List.flatMap_eq_nil_iff.mp none_ .critical (by decide)]
    rfl
  · rw [none_]
    rfl

/-- An event that sets out reaches those that are called with it. -/
theorem served_callOrder {fuel : Nat} (lists : d.bus.Lists regs) (quiet : d.bus.Quiet)
    (came : d.consumed = event.handled)
    (patient : (ahead regs event.type Priority.callOrder 0).length + Priority.callOrder.length ≤
      fuel) :
    Served regs event d (d.bus.called regs event) (deliver fuel Priority.callOrder 0 event d) := by
  rw [called, ← came]
  split
  · rename_i consumed
    obtain ⟨fuel, rfl⟩ : ∃ n, fuel = n + 1 := Nat.exists_eq_add_one.mpr (by
      have order : Priority.callOrder.length = 4 := rfl
      omega)
    exact served_deliver_consumed fuel .critical _ event lists quiet consumed
  · rename_i onward
    have served := served_deliver fuel Priority.callOrder 0 event lists quiet
      (Bool.not_eq_true _ ▸ onward) patient
    rwa [ahead_zero] at served

/-- When the observers have been called, it only remains to count whether one took the event. -/
theorem Served.dispatched
    (served : Served regs event ⟨b.record event, j, event.handled, false⟩ (b.called regs event) d) :
    b.Dispatched j (b.called regs event) event ({ event with handled := d.consumed },
      if d.reached then { d with bus := { d.bus with
        stats := { d.bus.stats with handled := d.bus.stats.handled + 1 } } }
      else d) := by
  have handled : ({ event with handled := d.consumed } : Event) =
      { event with
        handled := event.handled || (b.called regs event).any (Observer.consumes b.reactions) } :=
    congrArg (fun handled => { event with handled }) served.consumed
  have stats := served.stats
  cases reaches : d.reached with
  | false => exact ⟨served.journal, handled, served.reached, by simp [reaches, stats, record]⟩
  | true =>
    exact ⟨served.journal, handled, reaches.symm.trans served.reached, by simp [stats, record]⟩

/-- **A sent event** is dispatched to the observers that are due, and leaves them as they were. -/
theorem trigger_dispatched (lists : b.Lists regs) (quiet : b.Quiet) (j : Journal) (event : Event) :
    b.Dispatched j (b.called regs event) event (b.trigger j event) ∧
      (b.trigger j event).2.bus.Lists regs ∧
      (b.trigger j event).2.bus.reactions = b.reactions := by
  rw [trigger, triggerWith]
  dsimp only
  cases heard : b.lines.any (·.type == event.type) with
  | false =>
    rw [called_eq_nil (due_eq_nil lists heard)]
    refine ⟨⟨rfl, ?_, rfl, rfl⟩, lists.congr rfl, rfl⟩
    rw [List.any_nil, Bool.or_false]
    rfl
  | true =>
    have patient : (ahead regs event.type Priority.callOrder 0).length +
        Priority.callOrder.length ≤
          b.observerCount + Priority.callOrder.length + 1 + patience := by
      have le := lists.due_le event.type
      rw [ahead_zero]
      exact Nat.le_trans (Nat.add_le_add_right le _) (by omega)
    have served := served_callOrder (d := ⟨b.record event, j, event.handled, false⟩)
      (lists.congr rfl) (quiet.congr rfl) rfl patient
    rw [if_pos rfl]
    generalize deliver _ Priority.callOrder 0 event _ = d at served ⊢
    refine ⟨Served.dispatched served, ?_⟩
    split
    · exact ⟨served.lists.congr rfl, served.reactions⟩
    · exact ⟨served.lists, served.reactions⟩

/-! ## Calls -/

/-- What a host asks of a bus. -/
inductive Call where
  | enlist (type : EventType) (observer : Observer) (priority : Priority)
  | dismiss (type : EventType) (observer : Observer)
  | trigger (event : Event)
  | setFilter (types : List EventType)
  | clear
  /-- From here on the named observers react in these ways; a host whose observers are not set in
  theirs trains them before each event. -/
  | train (reactions : List (String × Reaction))

namespace Call

def make : Call → Bus × Journal → Bus × Journal
  | .enlist type observer priority, (b, j) =>
    (b.enlist type observer priority, j.addAll (enlistNotes type priority))
  | .dismiss type observer, (b, j) =>
    ((b.dismiss type observer).1, j.addAll (dismissNotes type (b.dismiss type observer).2))
  | .trigger event, (b, j) => ((b.trigger j event).2.bus, (b.trigger j event).2.journal)
  | .setFilter types, (b, j) => (b.setFilter types, j.addAll (setFilterNotes types))
  | .clear, (b, j) => (b.clearHistory, j.addAll clearNotes)
  | .train reactions, (b, j) => ({ b with reactions }, j)

/-- The registrations that are in force after a call. -/
def register (regs : List Registration) : Call → List Registration
  | .enlist type observer priority => regs ++ [⟨type, priority, observer⟩]
  | .dismiss type observer => without regs type observer
  | _ => regs

/-- A call that registers nobody a second time, and brings no observer that calls the bus. -/
def Fits (regs : List Registration) : Call → Prop
  | .enlist type observer _ => ∀ r ∈ regs, ¬ (r.type = type ∧ r.observer = observer)
  | .train reactions => ∀ entry ∈ reactions, entry.2.plain = true
  | _ => True

end Call

/-- Calls that each fit the registrations that they find in force. -/
def Orderly : List Registration → List Call → Prop
  | _, [] => True
  | regs, call :: calls => call.Fits regs ∧ Orderly (call.register regs) calls

/-- A new bus, after calls. -/
def after (limit : Int) (j : Journal) (calls : List Call) : Bus × Journal :=
  calls.foldl (fun s call => call.make s) (create limit, j)

/-- The registrations that calls have left in force, in the order in which they were made. -/
def standing (calls : List Call) : List Registration := calls.foldl Call.register []

theorem learn_eq (b : Bus) (name : String) (reaction : Reaction) :
    b.learn name reaction = { b with reactions := (b.learn name reaction).reactions } := by
  rw [learn]
  split <;> rfl

theorem quiet_create (limit : Int) : (create limit).Quiet := fun _ => rfl

theorem quiet_train {reactions : List (String × Reaction)}
    (plain : ∀ entry ∈ reactions, entry.2.plain = true) : Quiet { b with reactions } := by
  intro name
  rw [reactionOf]
  dsimp only
  cases found : reactions.lookup name with
  | none => rfl
  | some reaction =>
    obtain ⟨_, _, rfl, -⟩ := List.lookup_eq_some_iff.mp found
    exact plain (name, reaction) (by simp)

/-- **One call** keeps the lines of a bus in step with the registrations. -/
theorem make_lists (lists : b.Lists regs) (quiet : b.Quiet) (j : Journal) (call : Call)
    (fits : call.Fits regs) :
    (call.make (b, j)).1.Lists (call.register regs) ∧ (call.make (b, j)).1.Quiet := by
  cases call with
  | enlist type observer priority =>
    exact ⟨lists.enlist fits priority, quiet.relined (b.enlist_lines type observer priority)⟩
  | dismiss type observer =>
    exact ⟨(lists.dismiss type observer).1, quiet.relined (b.dismiss_lines type observer)⟩
  | trigger event =>
    obtain ⟨-, lists, same⟩ := trigger_dispatched lists quiet j event
    exact ⟨lists, quiet.congr same⟩
  | setFilter types => exact ⟨lists.congr rfl, quiet.congr rfl⟩
  | clear => exact ⟨lists.congr rfl, quiet.congr rfl⟩
  | train reactions => exact ⟨lists.congr rfl, quiet_train fits⟩

theorem makes_lists (lists : b.Lists regs) (quiet : b.Quiet) (j : Journal) {calls : List Call}
    (orderly : Orderly regs calls) :
    (calls.foldl (fun s call => call.make s) (b, j)).1.Lists (calls.foldl Call.register regs) ∧
      (calls.foldl (fun s call => call.make s) (b, j)).1.Quiet := by
  induction calls generalizing b j regs with
  | nil => exact ⟨lists, quiet⟩
  | cons call calls ih =>
    obtain ⟨lists, quiet⟩ := make_lists lists quiet j call orderly.1
    exact ih lists quiet (call.make (b, j)).2 orderly.2

/-- **Dispatch**: after any calls by which nobody is registered a second time, and while no observer
calls the bus, a type has observers if a registration for it is left, an observer can be let out if
it stands there, and an event goes to the observers that are due, up to the one behind which it is
consumed; one that comes consumed goes to the first critical observer alone. -/
theorem events_dispatched (limit : Int) (j : Journal) (calls : List Call)
    (orderly : Orderly [] calls) :
    let b := (after limit j calls).1
    (∀ type, b.hasObservers type = true ↔ ∃ r ∈ standing calls, r.type = type) ∧
    (∀ type observer, (b.dismiss type observer).2 = true ↔
      ∃ priority, ⟨type, priority, observer⟩ ∈ standing calls) ∧
    ∀ j event, b.Dispatched j (b.called (standing calls) event) event (b.trigger j event) := by
  intro b
  obtain ⟨lists, quiet⟩ := makes_lists (lists_create limit) (quiet_create limit) j orderly
  exact ⟨lists.hasObservers_iff, fun type observer => (lists.dismiss type observer).2,
    fun j event => (trigger_dispatched lists quiet j event).1⟩

/-- Four observers of key presses, of which one leaves again: a critical one that fails, a normal one
that consumes what it gets and then fails, and a low one. -/
def keyWatch : List Call :=
  [.train [("deaf", .consumeAndFail), ("broken", .fail)],
    .enlist .keyPress (.scripted "last") .low, .enlist .keyPress (.scripted "deaf") .normal,
    .enlist .keyPress (.scripted "gone") .high, .enlist .keyPress (.scripted "broken") .critical,
    .dismiss .keyPress (.scripted "gone")]

theorem events_dispatched_keyWatch :
    Orderly [] keyWatch ∧
    let b := (after 100 {} keyWatch).1
    let sent := b.trigger {} ⟨0, .keyPress, "keypad", .null, false⟩
    b.hasObservers .keyPress = true ∧
    sent.1.handled = true ∧ sent.2.reached = false ∧ sent.2.bus.stats = ⟨1, 0, 0⟩ ∧
    sent.2.journal.marks = #["broken:KEY_PRESS", "deaf:KEY_PRESS"] := by
  have orderly : Orderly [] keyWatch := by
    simp [Orderly, keyWatch, Call.Fits, Call.register, Reaction.plain]
  obtain ⟨observed, -, sends⟩ := events_dispatched 100 {} keyWatch orderly
  obtain ⟨journal, handled, reached, stats⟩ := sends {} ⟨0, .keyPress, "keypad", .null, false⟩
  have called : (after 100 {} keyWatch).1.called (standing keyWatch)
      ⟨0, .keyPress, "keypad", .null, false⟩ = [.scripted "broken", .scripted "deaf"] := by
    decide
  rw [called] at journal handled reached stats
  refine ⟨orderly, (observed _).mpr ⟨⟨.keyPress, .low, .scripted "last"⟩, by decide, rfl⟩, ?_, ?_,
    ?_, ?_⟩
  · exact congrArg Event.handled handled
  · exact reached
  · rw [stats, reached]
    rfl
  · rw [journal]
    decide

/-- To stop behind the first observer after whose call the event is consumed would be to call the only
one there is, also with an event that comes consumed; but that one passes a normal observer by. -/
theorem consumed_event_passes :
    let calls : List Call := [.enlist .keyPress (.scripted "only") .normal]
    let b := (after 100 {} calls).1
    let event : Event := ⟨0, .keyPress, "keypad", .null, true⟩
    let awaited := upTo (fun o => event.handled || o.consumes b.reactions)
      (due (standing calls) event.type)
    Orderly [] calls ∧ awaited = [.scripted "only"] ∧
      ¬ b.Dispatched {} awaited event (b.trigger {} event) := by
  intro calls b event awaited
  have orderly : Orderly [] calls := by simp [calls, Orderly, Call.Fits]
  obtain ⟨lists, quiet⟩ := makes_lists (lists_create 100) (quiet_create 100) {} orderly
  have passed := (trigger_dispatched lists quiet {} event).1.reached
  refine ⟨orderly, by decide, fun dispatched => ?_⟩
  have called : (b.called (standing calls) event).any (Observer.returns b.reactions) = false := by
    decide
  have awaited_ : awaited.any (Observer.returns b.reactions) = true := by decide
  exact Bool.false_ne_true (called.symm.trans (passed.symm.trans (dispatched.reached.trans awaited_)))

end Bus
end ChipEight
