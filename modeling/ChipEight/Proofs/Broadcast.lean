import ChipEight.Proofs.CleanFailure
import ChipEight.Proofs.KeptEvents
import ChipEight.Proofs.Notices
/-! # What is told reaches the bus

An event that is told is published: it is counted, it enters the history as filter and limit have it,
and the observers that are due are called (`Observers.publish_published`).  So what has been told is
seen on the bus.  Its log are the news that were published, one after the other, while nothing else
happened there (`Observers.Fires`); the counts and the history grow by the log
(`Observers.Fires.counted`, `Observers.Fires.kept`).  The turns of a system fire the events among
their notices (`System.turns_fire`). -/

namespace ChipEight

/-- What is told in an event. -/
structure News where
  type : EventType
  source : String
  payload : Datum

/-- The news as an event has them, where nothing to tell is an empty payload. -/
def News.sent (news : News) : News := { news with payload := Event.payloadOf news.payload }

def Event.news (e : Event) : News := ⟨e.type, e.source, e.payload⟩

/-- The event in which news go out next. -/
def Bus.eventOf (b : Bus) (news : News) : Event := b.newEvent news.type news.source news.payload

/-! ## Publishing -/

namespace Observers

open Registration

variable {o o₁ o' : Observers} {news : News} {log log' : List News} {regs : List Registration}

/-- The observers `o'` are `o` after news were published. -/
structure Published (o : Observers) (news : News) (o' : Observers) : Prop where
  errors : o'.errors = o.errors
  trace : o'.trace = o.trace
  /-- The event is recorded before anything else.  What is done meanwhile is done by observers, and if
  none of them calls the bus, then the event is consumed or nothing happens. -/
  recorded : ∃ meanwhile : List Deed,
    Bus.SameRecords ((Deed.sent (o.bus.eventOf news) :: meanwhile).foldl Bus.done o.bus) o'.bus ∧
    (o.bus.Quiet → ∀ deed ∈ meanwhile, deed = .consumed (o.bus.eventOf news).serial)
  /-- If no observer calls the bus, those that are due are called, up to the one that consumes the
  event.  The journal has what they say, and the bus counts them. -/
  called : ∀ regs, o.bus.Lists regs → o.bus.Quiet →
    let called := upTo (Observer.consumes o.bus.reactions) (due regs news.type)
    o'.journal =
      called.foldl (Observer.speaks o.bus.reactions (o.bus.eventOf news)) o.journal ∧
    o'.bus.stats = {
      triggered := o.bus.stats.triggered + 1
      handled := o.bus.stats.handled +
        if called.any (Observer.returns o.bus.reactions) then 1 else 0
      calls := o.bus.stats.calls + called.countP (Observer.returns o.bus.reactions) } ∧
    o'.bus.Lists regs ∧ o'.bus.reactions = o.bus.reactions

/-- **Whatever is published is recorded, and heard by those who are due.** -/
theorem publish_published (o : Observers) (news : News) :
    o.Published news (o.publish news.type news.source news.payload) where
  errors := rfl
  trace := rfl
  recorded := by
    refine ⟨_, Bus.triggerWith_records (Bus.logs_deliver _ Priority.callOrder 0) o.bus o.journal
      (o.bus.eventOf news), fun quiet deed mem => ?_⟩
    split at mem
    · exact Bus.deliverDeeds_of_quiet (quiet.congr rfl) _ _ 0 _ deed mem
    · cases mem
  called := by
    intro regs lists quiet called
    obtain ⟨dispatched, lists', reactions⟩ :=
      Bus.trigger_dispatched lists quiet o.journal (o.bus.eventOf news)
    have same : o.bus.called regs (o.bus.eventOf news) = called := if_neg Bool.false_ne_true
    rw [same] at dispatched
    have stats := dispatched.stats
    rw [dispatched.reached] at stats
    exact ⟨dispatched.journal, stats, lists', reactions⟩

/-! ## Logs -/

/-- The observers `o'` are `o` after the news of a log were published, one after the other, and
besides nothing has happened to the bus. -/
inductive Fires : Observers → List News → Observers → Prop
  | nothing (o : Observers) : Fires o [] o
  | aside {o o₁ o' : Observers} {log : List News} :
      o₁.bus = o.bus → Fires o₁ log o' → Fires o log o'
  | event {o o₁ o' : Observers} {news : News} {log : List News} :
      o.Published news o₁ → Fires o₁ log o' → Fires o (news :: log) o'

theorem Fires.trans (first : o.Fires log o₁) (second : o₁.Fires log' o') :
    o.Fires (log ++ log') o' := by
  induction first with
  | nothing o => exact second
  | aside same _ ih => exact .aside same (ih second)
  | event published _ ih => exact .event published (ih second)

/-- **The events of a log are counted**, if no observer adds to them. -/
theorem Fires.counted (fires : o.Fires log o') (lists : o.bus.Lists regs) (quiet : o.bus.Quiet) :
    o'.bus.stats.triggered = o.bus.stats.triggered + log.length := by
  induction fires with
  | nothing o => rfl
  | aside same _ ih =>
    rw [← same] at lists quiet ⊢
    exact ih lists quiet
  | event published _ ih =>
    obtain ⟨-, stats, lists', reactions⟩ := published.called regs lists quiet
    rw [ih lists' (quiet.congr reactions), stats, List.length_cons]
    dsimp only
    omega

/-- To be consumed is no news. -/
theorem news_foldl_consumed {serial : Nat} {deeds : List Deed}
    (consumed : ∀ deed ∈ deeds, deed = .consumed serial) (past : Past) :
    (deeds.foldl Past.after past).filter = past.filter ∧
      (deeds.foldl Past.after past).events.map Event.news = past.events.map Event.news := by
  induction deeds generalizing past with
  | nil => exact ⟨rfl, rfl⟩
  | cons deed deeds ih =>
    rw [List.forall_mem_cons] at consumed
    obtain ⟨rfl, consumed⟩ := consumed
    obtain ⟨filter, news⟩ := ih consumed (past.after (.consumed serial))
    refine ⟨filter, news.trans ?_⟩
    rw [Past.after, List.map_map]
    refine List.map_congr_left fun e _ => ?_
    rw [Function.comp_apply]
    split <;> rfl

/-- **The events of a log are kept**, as filter and limit have it, if no observer adds to them. -/
theorem Fires.kept {limit : Nat} {past : Past} (fires : o.Fires log o') (pos : 0 < limit)
    (lists : o.bus.Lists regs) (quiet : o.bus.Quiet) (keeps : Bus.Keeps limit past o.bus) :
    ∃ past', Bus.Keeps limit past' o'.bus ∧ past'.events.map Event.news =
      past.events.map Event.news ++ (log.filter fun news =>
        past.filter = [] ∨ news.type ∈ past.filter).map News.sent := by
  induction fires generalizing past with
  | nothing o => exact ⟨past, keeps, (List.append_nil _).symm⟩
  | aside same _ ih =>
    rw [← same] at lists quiet keeps
    exact ih lists quiet keeps
  | @event o _ _ news log published _ ih =>
    obtain ⟨meanwhile, records, only⟩ := published.recorded
    obtain ⟨-, -, lists', reactions⟩ := published.called regs lists quiet
    obtain ⟨filter, same⟩ :=
      news_foldl_consumed (only quiet) (past.after (.sent (o.bus.eventOf news)))
    have unfiltered : (past.after (.sent (o.bus.eventOf news))).filter = past.filter := by
      rw [Past.after]
      split <;> rfl
    obtain ⟨past', keeps', more⟩ :=
      ih lists' (quiet.congr reactions) ((keeps.foldl pos _).of_same records)
    refine ⟨past', keeps', more.trans ?_⟩
    rw [List.foldl_cons, filter, unfiltered, same, Past.after, List.filter_cons]
    have type : (o.bus.eventOf news).type = news.type := rfl
    rw [type]
    by_cases passes : past.filter = [] ∨ news.type ∈ past.filter
    · rw [if_pos passes, if_pos (decide_eq_true passes), List.map_append, List.append_assoc]
      rfl
    · rw [if_neg passes, if_neg fun through => passes (of_decide_eq_true through)]

end Observers

/-! ## Notices -/

/-- The notice of an event. -/
def News.notice (news : News) : Notice := .event news.type news.source news.payload

def Notice.news? : Notice → Option News
  | .event type source payload => some ⟨type, source, payload⟩
  | _ => none

/-- What notices tell in events, but for the instructions that are executed. -/
def newsOf (notices : List Notice) : List News := notices.filterMap Notice.news?

/-- The news of a type. -/
def News.payload? (type : EventType) (news : News) : Option Datum :=
  if news.type = type then some news.payload else none

/-- The payloads of the news of a type, in the order in which they are published. -/
def payloads (type : EventType) (log : List News) : List Datum :=
  log.filterMap (News.payload? type)

/-- What is told besides the instructions that are executed. -/
def besides (log : List News) : List News := log.filter fun news => news.type ≠ .cpuInstruction

theorem besides_append (xs ys : List News) : besides (xs ++ ys) = besides xs ++ besides ys :=
  List.filter_append ..

theorem payloads_besides {type : EventType} (other : type ≠ .cpuInstruction) (log : List News) :
    payloads type (besides log) = payloads type log := by
  rw [payloads, besides, List.filterMap_filter]
  refine List.filterMap_congr fun news _ => ?_
  rw [News.payload?]
  by_cases mine : news.type = type
  · rw [if_pos mine, mine, if_pos (decide_eq_true other)]
  · rw [if_neg mine, ite_self]

theorem payloads_newsOf (type : EventType) (notices : List Notice) :
    payloads type (newsOf notices) = fired type notices := by
  rw [payloads, newsOf, List.filterMap_filterMap, fired]
  refine List.filterMap_congr fun notice _ => ?_
  cases notice <;> rfl

/-- A log that tells besides instructions what notices tell has their payloads. -/
theorem payloads_eq_fired {log : List News} {notices : List Notice} {type : EventType}
    (told : besides log = newsOf notices) (other : type ≠ .cpuInstruction) :
    payloads type log = fired type notices := by
  rw [← payloads_besides other, told, payloads_newsOf]

theorem types_newsOf (notices : List Notice) :
    (newsOf notices).map News.type = announced notices := by
  rw [newsOf, List.map_filterMap, announced]
  refine List.filterMap_congr fun notice _ => ?_
  cases notice <;> rfl

namespace Observers

/-- **Events that are told behind lines for the journal are fired**, and nothing else is. -/
theorem fires_behind_lines (o : Observers) (lines : List (List Record)) (log : List News) :
    o.Fires log (o.hearAll (lines.map .lines ++ log.map News.notice)) := by
  induction lines generalizing o with
  | nil =>
    rw [List.map_nil, List.nil_append]
    induction log generalizing o with
    | nil => exact .nothing o
    | cons news log ih => exact .event (o.publish_published news) (ih _)
  | cons records lines ih =>
    have aside : (o.hear (.lines records)).bus = o.bus := rfl
    exact .aside aside (ih _)

/-- A notice that is no event is none of the bus's business, but that an instruction may be heard. -/
theorem hear_fires (o : Observers) (notice : Notice) :
    ∃ log, o.Fires log (o.hear notice) ∧ besides log = besides notice.news?.toList := by
  cases notice with
  | lines records =>
    have aside : (o.hear (.lines records)).bus = o.bus := rfl
    exact ⟨[], .aside aside (.nothing _), rfl⟩
  | report fault raised context => exact ⟨[], .aside (o.report_bus ..) (.nothing _), rfl⟩
  | snapshot state =>
    have aside : (o.record fun _ => state).bus = o.bus := by
      rw [record]
      split <;> rfl
    exact ⟨[], .aside aside (.nothing _), rfl⟩
  | event type source payload =>
    exact ⟨_, .event (o.publish_published ⟨type, source, payload⟩) (.nothing _), rfl⟩
  | instruction payload =>
    rw [hear]
    split
    · exact ⟨_, .event (o.publish_published ⟨.cpuInstruction, "cpu", payload⟩) (.nothing _), rfl⟩
    · exact ⟨[], .nothing o, rfl⟩

/-- **The events among notices are fired**, and besides them at most instructions. -/
theorem hearAll_fires (o : Observers) (notices : List Notice) :
    ∃ log, o.Fires log (o.hearAll notices) ∧ besides log = besides (newsOf notices) := by
  induction notices generalizing o with
  | nil => exact ⟨[], .nothing o, rfl⟩
  | cons notice rest ih =>
    obtain ⟨first, fires, news⟩ := o.hear_fires notice
    obtain ⟨log, fires', news'⟩ := ih (o.hear notice)
    refine ⟨first ++ log, fires.trans fires', ?_⟩
    rw [besides_append, news, news', ← besides_append, newsOf, newsOf, List.filterMap_cons]
    cases notice.news? <;> rfl

end Observers

namespace System

/-- No notice is the event of an instruction. -/
theorem cpuInstruction_not_announced (s : System) (turns : List Turn) :
    .cpuInstruction ∉ announced (s.noticesOf turns) := by
  induction turns generalizing s with
  | nil => exact List.not_mem_nil
  | cons turn_ turns ih =>
    rw [noticesOf, announced_append, List.mem_append, not_or]
    refine ⟨fun mem => ?_, ih _⟩
    have mem := s.announced_notices turn_ mem
    cases turn_ with
    | host action => cases action <;> simp [Turn.announces] at mem
    | _ => simp [Turn.announces] at mem

/-- **Turns fire the events among their notices**, and besides them at most the instructions that are
executed. -/
theorem turns_fire (s : System) (turns : List Turn) :
    ∃ log, s.observers.Fires log (turns.foldl turn s).observers ∧
      besides log = newsOf (s.noticesOf turns) := by
  obtain ⟨log, fires, told⟩ := s.observers.hearAll_fires (s.noticesOf turns)
  rw [← turns_observers] at fires
  refine ⟨log, fires, told.trans (List.filter_eq_self.mpr fun news mem => ?_)⟩
  refine decide_eq_true fun instruction => s.cpuInstruction_not_announced turns ?_
  rw [← types_newsOf, ← instruction]
  exact List.mem_map_of_mem mem

theorem turn_fires (s : System) (turn_ : Turn) :
    ∃ log, s.observers.Fires log (s.turn turn_).observers ∧
      besides log = newsOf (s.notices turn_) := by
  have fires := s.turns_fire [turn_]
  rwa [noticesOf, noticesOf, List.append_nil] at fires

/-- **Requests fire the events among the notices of their turns.** -/
theorem requests_fire (s : System) (asked : List Asked) :
    ∃ log, s.observers.Fires log (s.serveAll asked).observers ∧
      besides log = newsOf (s.noticesOf (s.turnsOf asked)) := by
  rw [serveAll_turns]
  exact s.turns_fire (s.turnsOf asked)

end System
end ChipEight
