import ChipEight.EventBus
import Mathlib.Data.List.Nodup
/-! # Lines of observers

A bus keeps its observers in lines that it makes when they are first needed: by who comes, but also
by an event that looks for a line which nobody stands in.  What the lines hold is told by the
registrations in force (`Bus.Lists`): the line of a type and priority are the observers that came
for them and have not left, in the order in which they came. -/

namespace ChipEight

/-- Whose line it is. -/
def Line.key (l : Line) : EventType × Priority := (l.type, l.priority)

theorem Line.beq_key {l : Line} {type : EventType} {priority : Priority} :
    (l.type == type && l.priority == priority) = true ↔ l.key = (type, priority) := by
  rw [Bool.and_eq_true, beq_iff_eq, beq_iff_eq, key, Prod.mk.injEq]

namespace Bus

variable {b : Bus} {l : Line} {type type' : EventType} {priority priority' : Priority}
  {observer : Observer} {change : List Observer → List Observer}

/-- No two lines are of one type and priority. -/
def Tidy (b : Bus) : Prop := (b.lines.map Line.key).Nodup

/-- The line of a type and priority is the one that is found, or none is there. -/
theorem line_cases (b : Bus) (type : EventType) (priority : Priority) :
    (∃ l ∈ b.lines, l.key = (type, priority) ∧ b.line type priority = l.observers) ∨
      (∀ l ∈ b.lines, l.key ≠ (type, priority)) ∧ b.line type priority = [] := by
  rw [line]
  cases found : b.lines.find? fun l => l.type == type && l.priority == priority with
  | some l =>
    have key := List.find?_some found
    exact .inl ⟨l, List.mem_of_find?_eq_some found, Line.beq_key.mp key, rfl⟩
  | none =>
    exact .inr ⟨fun l mem key => List.find?_eq_none.mp found l mem (Line.beq_key.mpr key), rfl⟩

theorem Tidy.line (tidy : b.Tidy) (mem : l ∈ b.lines) (key : l.key = (type, priority)) :
    b.line type priority = l.observers := by
  rcases b.line_cases type priority with ⟨l', mem', key', same⟩ | ⟨absent, -⟩
  · rw [same, List.inj_on_of_nodup_map tidy mem' mem (key'.trans key.symm)]
  · exact absurd key (absent l mem)

theorem line_eq_nil (absent : ∀ l ∈ b.lines, l.key ≠ (type, priority)) :
    b.line type priority = [] := by
  rcases b.line_cases type priority with ⟨l, mem, key, -⟩ | ⟨-, nil⟩
  · exact absurd key (absent l mem)
  · exact nil

theorem exists_line (there : observer ∈ b.line type priority) :
    ∃ l ∈ b.lines, l.key = (type, priority) ∧ observer ∈ l.observers := by
  rcases b.line_cases type priority with ⟨l, mem, key, same⟩ | ⟨-, nil⟩
  · exact ⟨l, mem, key, by rwa [← same]⟩
  · rw [nil] at there
    cases there

theorem Tidy.hasObservers_iff (tidy : b.Tidy) :
    b.hasObservers type = true ↔ ∃ priority observer, observer ∈ b.line type priority := by
  simp only [hasObservers, List.any_eq_true, Bool.and_eq_true, beq_iff_eq, Bool.not_eq_true',
    List.isEmpty_eq_false_iff_exists_mem]
  constructor
  · rintro ⟨l, mem, rfl, observer, inside⟩
    exact ⟨l.priority, observer, by rwa [tidy.line mem rfl]⟩
  · rintro ⟨priority, observer, there⟩
    obtain ⟨l, mem, key, inside⟩ := exists_line there
    exact ⟨l, mem, (Prod.mk.inj key).1, observer, inside⟩

/-! ## What changes a line -/

theorem touch_cases (b : Bus) (type : EventType) (priority : Priority) :
    b.touch type priority = b ∧ (∃ l ∈ b.lines, l.key = (type, priority)) ∨
    b.touch type priority = { b with lines := b.lines ++ [⟨type, priority, []⟩] } ∧
      ∀ l ∈ b.lines, l.key ≠ (type, priority) := by
  rw [touch]
  split
  · rename_i there
    obtain ⟨l, mem, key⟩ := List.any_eq_true.mp there
    exact .inl ⟨rfl, l, mem, Line.beq_key.mp key⟩
  · rename_i absent
    exact .inr ⟨rfl, fun l mem key =>
      absent (List.any_eq_true.mpr ⟨l, mem, Line.beq_key.mpr key⟩)⟩

/-- Whoever comes or leaves, only lines change. -/
theorem touch_lines (b : Bus) (type : EventType) (priority : Priority) :
    ∃ lines, b.touch type priority = { b with lines } := by
  rcases b.touch_cases type priority with ⟨same, -⟩ | ⟨touched, -⟩
  · exact ⟨b.lines, same⟩
  · exact ⟨_, touched⟩

theorem enlist_lines (b : Bus) (type : EventType) (observer : Observer) (priority : Priority) :
    ∃ lines, b.enlist type observer priority = { b with lines } := by
  obtain ⟨lines, touched⟩ := b.touch_lines type priority
  rw [enlist, touched]
  exact ⟨_, rfl⟩

theorem dismiss_lines (b : Bus) (type : EventType) (observer : Observer) :
    ∃ lines, (b.dismiss type observer).1 = { b with lines } := by
  rw [dismiss]
  split
  · exact ⟨_, rfl⟩
  · exact ⟨b.lines, rfl⟩

theorem Tidy.touch (tidy : b.Tidy) : (b.touch type priority).Tidy := by
  rcases b.touch_cases type priority with ⟨same, -⟩ | ⟨touched, absent⟩
  · rwa [same]
  · rw [touched, Tidy, List.map_append]
    refine List.Nodup.append tidy (List.nodup_singleton _) fun key mem new => ?_
    obtain ⟨l, inside, rfl⟩ := List.mem_map.mp mem
    exact absent l inside (List.mem_singleton.mp new)

theorem Tidy.line_touch (tidy : b.Tidy) (type type' : EventType) (priority priority' : Priority) :
    (b.touch type priority).line type' priority' = b.line type' priority' := by
  rcases b.touch_cases type priority with ⟨same, -⟩ | ⟨touched, absent⟩
  · rw [same]
  have tidy' : (b.touch type priority).Tidy := tidy.touch
  have lines : (b.touch type priority).lines = b.lines ++ [⟨type, priority, []⟩] := by rw [touched]
  rcases b.line_cases type' priority' with ⟨l, mem, key, same⟩ | ⟨absent', nil⟩
  · rw [same, tidy'.line (by rw [lines]; exact List.mem_append_left _ mem) key]
  · rw [nil]
    by_cases new : (type', priority') = (type, priority)
    · cases new
      exact tidy'.line (l := ⟨type, priority, []⟩) (by simp [lines]) rfl
    · refine line_eq_nil fun l mem key => ?_
      rw [lines, List.mem_append, List.mem_singleton] at mem
      rcases mem with mem | rfl
      · exact absent' l mem key
      · exact new key.symm

theorem Tidy.amend (tidy : b.Tidy) : (b.amend type priority change).Tidy := by
  have keys : (b.amend type priority change).lines.map Line.key = b.lines.map Line.key := by
    rw [Bus.amend, List.map_map]
    refine List.map_congr_left fun l _ => ?_
    rw [Function.comp_apply]
    split <;> rfl
  rw [Tidy, keys]
  exact tidy

/-- A line that is there is changed, and no other. -/
theorem Tidy.line_amend (tidy : b.Tidy) (there : ∃ l ∈ b.lines, l.key = (type, priority))
    (type' : EventType) (priority' : Priority) :
    (b.amend type priority change).line type' priority' =
      if type' = type ∧ priority' = priority then change (b.line type priority)
      else b.line type' priority' := by
  have amended : ∀ l ∈ b.lines, (b.amend type priority change).line l.type l.priority =
      if l.type = type ∧ l.priority = priority then change l.observers else l.observers := by
    intro l mem
    have moved : (if l.type == type && l.priority == priority then
        { l with observers := change l.observers } else l) ∈
          (b.amend type priority change).lines := List.mem_map.mpr ⟨l, mem, rfl⟩
    rw [tidy.amend.line moved (by split <;> rfl)]
    by_cases same : l.type = type ∧ l.priority = priority
    · rw [if_pos same, if_pos (by simp [same])]
    · rw [if_neg same, if_neg (by simpa using same)]
  by_cases same : type' = type ∧ priority' = priority
  · obtain ⟨rfl, rfl⟩ := same
    obtain ⟨l, mem, key⟩ := there
    obtain ⟨rfl, rfl⟩ := Prod.mk.inj key
    rw [amended l mem, tidy.line mem rfl]
  · rw [if_neg same]
    rcases b.line_cases type' priority' with ⟨l, mem, key, line⟩ | ⟨absent, nil⟩
    · obtain ⟨rfl, rfl⟩ := Prod.mk.inj key
      rw [amended l mem, if_neg same, line]
    · rw [nil]
      refine line_eq_nil fun l mem key => ?_
      obtain ⟨l, inside, rfl⟩ := List.mem_map.mp mem
      refine absent l inside (key ▸ ?_)
      split <;> rfl

end Bus

/-! ## Registrations -/

/-- An observer that stands in the line of a type and priority. -/
structure Registration where
  type : EventType
  priority : Priority
  observer : Observer
  deriving DecidableEq

namespace Registration

variable {regs : List Registration} {type type' : EventType} {priority priority' : Priority}
  {observer observer' : Observer}

/-- The observers of a type and priority, in the order of their registrations. -/
def inLine (regs : List Registration) (type : EventType) (priority : Priority) : List Observer :=
  (regs.filter fun r => r.type = type ∧ r.priority = priority).map Registration.observer

/-- The registrations that remain when an observer leaves the lines of a type. -/
def without (regs : List Registration) (type : EventType) (observer : Observer) :
    List Registration := regs.filter fun r => ¬ (r.type = type ∧ r.observer = observer)

/-- No observer is registered twice for one type. -/
def Once (regs : List Registration) : Prop :=
  (regs.map fun r => (r.type, r.observer)).Nodup

theorem mem_inLine : observer ∈ inLine regs type priority ↔ ⟨type, priority, observer⟩ ∈ regs := by
  rw [inLine, List.mem_map]
  constructor
  · rintro ⟨r, among, rfl⟩
    obtain ⟨mem, same⟩ := List.mem_filter.mp among
    obtain ⟨rfl, rfl⟩ := of_decide_eq_true same
    exact mem
  · intro mem
    exact ⟨_, List.mem_filter.mpr ⟨mem, by simp⟩, rfl⟩

theorem inLine_append (regs : List Registration) (r : Registration) (type : EventType)
    (priority : Priority) : inLine (regs ++ [r]) type priority =
      inLine regs type priority ++
        if r.type = type ∧ r.priority = priority then [r.observer] else [] := by
  rw [inLine, inLine, List.filter_append, List.map_append]
  by_cases same : r.type = type ∧ r.priority = priority <;> simp [same]

theorem inLine_without (regs : List Registration) (type type' : EventType) (observer : Observer)
    (priority : Priority) : inLine (without regs type observer) type' priority =
      if type' = type then (inLine regs type' priority).filter (· != observer)
      else inLine regs type' priority := by
  rw [inLine, without, List.filter_filter]
  split
  · rename_i same
    rw [inLine, List.filter_map, List.filter_filter]
    congr 1
    refine List.filter_congr fun r _ => ?_
    subst same
    by_cases typed : r.type = type' <;> simp [typed, Bool.and_comm, bne, beq_eq_decide]
  · rename_i other
    rw [inLine]
    congr 1
    refine List.filter_congr fun r _ => ?_
    by_cases typed : r.type = type'
    · simp [typed, other]
    · simp [typed]

theorem Once.nodup_inLine (once : Once regs) (type : EventType) (priority : Priority) :
    (inLine regs type priority).Nodup := by
  refine List.Nodup.map_on ?_ ((List.Nodup.of_map _ once).filter _)
  intro r among r' among' same
  obtain ⟨mem, there⟩ := List.mem_filter.mp among
  obtain ⟨mem', there'⟩ := List.mem_filter.mp among'
  have typed := (of_decide_eq_true there).1.trans (of_decide_eq_true there').1.symm
  exact List.inj_on_of_nodup_map once mem mem' (Prod.ext typed same)

theorem Once.priority_eq (once : Once regs) (mem : ⟨type, priority, observer⟩ ∈ regs)
    (mem' : ⟨type, priority', observer⟩ ∈ regs) : priority = priority' :=
  congrArg Registration.priority (List.inj_on_of_nodup_map once mem mem' rfl)

theorem Once.without (once : Once regs) : Once (without regs type observer) :=
  once.sublist ((List.filter_sublist).map _)

theorem Once.append (once : Once regs) (free : ∀ r ∈ regs, ¬ (r.type = type ∧ r.observer = observer))
    (priority : Priority) : Once (regs ++ [⟨type, priority, observer⟩]) := by
  rw [Once, List.map_append]
  refine List.Nodup.append once (List.nodup_singleton _) fun claim among new => ?_
  obtain ⟨r, mem, rfl⟩ := List.mem_map.mp among
  exact free r mem (Prod.mk.inj (List.mem_singleton.mp new))

end Registration

namespace Bus

open Registration

variable {b : Bus} {regs : List Registration} {type : EventType} {observer : Observer}

/-- The lines of a bus are those of the registrations that are in force. -/
structure Lists (b : Bus) (regs : List Registration) : Prop where
  tidy : b.Tidy
  once : Once regs
  line : ∀ type priority, b.line type priority = inLine regs type priority

theorem lists_create (limit : Int) : (create limit).Lists [] :=
  ⟨List.nodup_nil, List.nodup_nil, fun _ _ => rfl⟩

/-- Who comes stands at the end of the line. -/
theorem Lists.enlist (lists : b.Lists regs)
    (free : ∀ r ∈ regs, ¬ (r.type = type ∧ r.observer = observer)) (priority : Priority) :
    (b.enlist type observer priority).Lists (regs ++ [⟨type, priority, observer⟩]) where
  tidy := lists.tidy.touch.amend
  once := lists.once.append free priority
  line type' priority' := by
    have there : ∃ l ∈ (b.touch type priority).lines, l.key = (type, priority) := by
      rcases b.touch_cases type priority with ⟨same, there⟩ | ⟨touched, -⟩
      · rwa [same]
      · exact ⟨⟨type, priority, []⟩, by simp [touched], rfl⟩
    rw [Bus.enlist, lists.tidy.touch.line_amend there, lists.tidy.line_touch,
      lists.tidy.line_touch, inLine_append, lists.line, lists.line]
    by_cases same : type' = type ∧ priority' = priority
    · obtain ⟨rfl, rfl⟩ := same
      simp
    · rw [if_neg same, if_neg fun back => same ⟨back.1.symm, back.2.symm⟩, List.append_nil]

theorem Lists.dismiss_cases (lists : b.Lists regs) (type : EventType) (observer : Observer) :
    (∃ l ∈ b.lines, l.type = type ∧ observer ∈ l.observers ∧
      b.dismiss type observer = (b.amend type l.priority (·.erase observer), true)) ∨
    (∀ priority, ⟨type, priority, observer⟩ ∉ regs) ∧ b.dismiss type observer = (b, false) := by
  rw [Bus.dismiss]
  cases found : b.lines.find? fun l => l.type == type && l.observers.contains observer with
  | some l =>
    have holds := List.find?_some found
    simp only [Bool.and_eq_true, beq_iff_eq, List.contains_iff_mem] at holds
    exact .inl ⟨l, List.mem_of_find?_eq_some found, holds.1, holds.2, rfl⟩
  | none =>
    refine .inr ⟨fun priority mem => ?_, rfl⟩
    rw [← mem_inLine, ← lists.line] at mem
    obtain ⟨l, among, key, inside⟩ := exists_line mem
    refine List.find?_eq_none.mp found l among ?_
    simp [(Prod.mk.inj key).1, inside]

/-- Who is let out has left the line in which it stood. -/
theorem Lists.dismiss (lists : b.Lists regs) (type : EventType) (observer : Observer) :
    (b.dismiss type observer).1.Lists (without regs type observer) ∧
      ((b.dismiss type observer).2 = true ↔ ∃ priority, ⟨type, priority, observer⟩ ∈ regs) := by
  rcases lists.dismiss_cases type observer with ⟨l, mem, rfl, inside, left⟩ | ⟨absent, left⟩
  · have there : ⟨l.type, l.priority, observer⟩ ∈ regs := by
      rw [← mem_inLine, ← lists.line, lists.tidy.line mem rfl]
      exact inside
    rw [left]
    refine ⟨⟨lists.tidy.amend, lists.once.without, fun type' priority' => ?_⟩,
      iff_of_true rfl ⟨l.priority, there⟩⟩
    rw [lists.tidy.line_amend ⟨l, mem, rfl⟩, inLine_without, lists.line, lists.line]
    by_cases typed : type' = l.type
    · subst typed
      by_cases same : priority' = l.priority
      · subst same
        rw [if_pos ⟨rfl, rfl⟩, if_pos rfl, (lists.once.nodup_inLine _ _).erase_eq_filter]
      · have other : observer ∉ inLine regs l.type priority' := fun mem' =>
          same (lists.once.priority_eq (mem_inLine.mp mem') there)
        rw [if_neg fun both => same both.2, if_pos rfl, List.filter_eq_self.mpr]
        intro o among
        exact bne_iff_ne.mpr fun eq => other (eq ▸ among)
    · rw [if_neg fun both => typed both.1, if_neg typed]
  · rw [left]
    have same : without regs type observer = regs := by
      refine List.filter_eq_self.mpr fun r mem => ?_
      refine decide_eq_true fun both => absent r.priority ?_
      rw [← both.1, ← both.2]
      exact mem
    rw [same]
    exact ⟨lists, iff_of_false Bool.false_ne_true fun ⟨priority, mem⟩ => absent priority mem⟩

theorem Lists.hasObservers_iff (lists : b.Lists regs) (type : EventType) :
    b.hasObservers type = true ↔ ∃ r ∈ regs, r.type = type := by
  rw [lists.tidy.hasObservers_iff]
  constructor
  · rintro ⟨priority, observer, there⟩
    rw [lists.line, mem_inLine] at there
    exact ⟨_, there, rfl⟩
  · rintro ⟨r, mem, rfl⟩
    refine ⟨r.priority, r.observer, ?_⟩
    rw [lists.line, mem_inLine]
    exact mem

end Bus
end ChipEight
