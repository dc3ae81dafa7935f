import Pipework.Event

/-!
# What sinks receive

Whatever a process does with its sinks, each event goes to one of them, at once and in order. So a
collector keeps what was emitted to it since it was cleared last, the log is what was emitted to
logging sinks, and the sink of the process gets what is reported while it is set.
-/

namespace Pipework

namespace EventSink

/-- The events that go to a sink. -/
def received (sink : EventSink) (emitted : List (EventSink × Event)) : List Event :=
  emitted.filterMap fun (target, event) => if target = sink then some event else none

/-- The lines that logging sinks write for what goes to them. -/
def logged (emitted : List (EventSink × Event)) : List (LogLevel × Event) :=
  emitted.filterMap fun
    | (.logging level, event) => some (level.ofEvents, event)
    | _ => none

variable {sink : EventSink} {l more : List (EventSink × Event)}

@[simp] theorem received_nil : sink.received [] = [] := rfl

theorem received_append : sink.received (l ++ more) = sink.received l ++ sink.received more :=
  List.filterMap_append

@[simp] theorem logged_nil : logged [] = [] := rfl

theorem logged_append : logged (l ++ more) = logged l ++ logged more := List.filterMap_append

/-- A sink receives all that goes to it alone. -/
theorem received_map_self (sink : EventSink) (events : List Event) :
    sink.received (events.map (sink, ·)) = events := by
  induction events <;> grind [received]

theorem received_map_of_ne {other : EventSink} (h : other ≠ sink) (events : List Event) :
    sink.received (events.map (other, ·)) = [] := by
  simp [received, h]

end EventSink

namespace EventSinks

open EventSink (received received_append logged logged_append)

/-- What an operation emits, and to which sink. -/
def emission? (s : EventSinks) : Op → Option (EventSink × Event)
  | .emit sink event => some (sink, event)
  | .report event => some (s.current, event)
  | .clear _ | .share _ | .unshare => none

/-- All that operations emit, in order. -/
def emissions (s : EventSinks) : List Op → List (EventSink × Event)
  | [] => []
  | op :: ops => (s.emission? op).toList ++ (s.step op).emissions ops

/-- The sink that an operation gives the process, which may be none. -/
def Op.sharing? : Op → Option (Option EventSink)
  | .share sink => some (some sink)
  | .unshare => some none
  | .emit .. | .report _ | .clear _ => none

variable {s : EventSinks} {op : Op} {ops : List Op} {n : Nat}

@[simp] theorem run_nil (s : EventSinks) : s.run [] = s := rfl

@[simp] theorem run_cons (s : EventSinks) (op : Op) (ops : List Op) :
    s.run (op :: ops) = (s.step op).run ops := rfl

theorem run_append (s : EventSinks) (ops more : List Op) :
    s.run (ops ++ more) = (s.run ops).run more := List.foldl_append

theorem emissions_append (s : EventSinks) (ops more : List Op) :
    s.emissions (ops ++ more) = s.emissions ops ++ (s.run ops).emissions more := by
  induction ops generalizing s with
  | nil => rfl
  | cons op ops ih => simp only [List.cons_append, emissions, run_cons, ih, List.append_assoc]

/-! ## Steps -/

@[simp] theorem current_step_share (s : EventSinks) (sink : EventSink) :
    (s.step (.share sink)).current = sink := rfl

@[simp] theorem current_step_unshare (s : EventSinks) : (s.step .unshare).current = .noOp := rfl

theorem collected_receive (s : EventSinks) (event : Event) (sink : EventSink) (n : Nat) :
    (s.receive event sink).collected n
      = s.collected n ++ received (.collecting n) [(sink, event)] := by
  cases sink <;> grind [receive, received]

theorem log_receive (s : EventSinks) (event : Event) (sink : EventSink) :
    (s.receive event sink).log = s.log ++ logged [(sink, event)] := by
  cases sink <;> simp [receive, logged]

theorem shared_receive (s : EventSinks) (event : Event) (sink : EventSink) :
    (s.receive event sink).shared = s.shared := by
  cases sink <;> rfl

/-- An operation adds to a collector what it emits to it, unless it clears it. -/
theorem collected_step (s : EventSinks) (h : op ≠ .clear n) :
    (s.step op).collected n
      = s.collected n ++ received (.collecting n) (s.emission? op).toList := by
  cases op with
  | emit sink event => exact s.collected_receive event sink n
  | report event => exact s.collected_receive event s.current n
  | clear m =>
    have hm : n ≠ m := fun hm => h (hm ▸ rfl)
    simp [step, emission?, hm]
  | share | unshare => simp [step, emission?]

theorem log_step (s : EventSinks) (op : Op) :
    (s.step op).log = s.log ++ logged (s.emission? op).toList := by
  cases op with
  | emit sink event => exact s.log_receive event sink
  | report event => exact s.log_receive event s.current
  | clear | share | unshare => simp [step, emission?]

theorem shared_step (s : EventSinks) (op : Op) :
    (s.step op).shared = op.sharing?.getD s.shared := by
  cases op with
  | emit sink event => exact s.shared_receive event sink
  | report event => exact s.shared_receive event s.current
  | clear | share | unshare => rfl

/-! ## Runs -/

/-- A collector that is not cleared keeps what it has, and after it what is emitted to it. -/
theorem collected_run (s : EventSinks) (h : .clear n ∉ ops) :
    (s.run ops).collected n = s.collected n ++ received (.collecting n) (s.emissions ops) := by
  induction ops generalizing s with
  | nil => exact (List.append_nil _).symm
  | cons op ops ih =>
    obtain ⟨hop, hops⟩ := not_or.1 (mt List.mem_cons.2 h)
    rw [run_cons, ih _ hops, s.collected_step (Ne.symm hop), emissions, received_append,
      List.append_assoc]

/-- A collector has what was emitted to it since it was cleared last. -/
theorem collected_run_clear (s : EventSinks) (before : List Op) (h : .clear n ∉ ops) :
    (s.run (before ++ .clear n :: ops)).collected n
      = received (.collecting n) (((s.run before).step (.clear n)).emissions ops) := by
  have hempty : ((s.run before).step (.clear n)).collected n = [] := if_pos rfl
  rw [run_append, run_cons, collected_run _ h, hempty, List.nil_append]

/-- The log has what was emitted to logging sinks. -/
theorem log_run (s : EventSinks) (ops : List Op) :
    (s.run ops).log = s.log ++ logged (s.emissions ops) := by
  induction ops generalizing s with
  | nil => exact (List.append_nil _).symm
  | cons op ops ih =>
    rw [run_cons, ih, log_step, emissions, logged_append, List.append_assoc]

/-- The sink of the process is the one that was set last. -/
theorem shared_run (s : EventSinks) (ops : List Op) :
    (s.run ops).shared = (ops.filterMap Op.sharing?).getLast?.getD s.shared := by
  induction ops generalizing s with
  | nil => rfl
  | cons op ops ih =>
    rw [run_cons, ih, shared_step]
    cases hop : op.sharing? with
    | none => simp [hop]
    | some sink => simp [hop, List.getLast?_cons]

/-! ## Reports -/

/-- Reports go to the sink of the process, and leave it as it is. -/
theorem emissions_report (s : EventSinks) (events : List Event) :
    s.emissions (events.map .report) = events.map (s.current, ·) := by
  induction events generalizing s with
  | nil => rfl
  | cons event events ih =>
    have hcurrent : (s.step (.report event)).current = s.current := by
      rw [current, shared_step, Op.sharing?, Option.getD_none, current]
    rw [List.map_cons, emissions, ih, hcurrent]
    rfl

/-- A collector receives the reports that are made while it is the sink of the process, and none of
those that are made while there is no such sink. -/
theorem collected_run_share (s : EventSinks) (n : Nat) (during after : List Event) :
    (s.run (.share (.collecting n) :: during.map .report
      ++ .unshare :: after.map .report)).collected n = s.collected n ++ during := by
  have hkept : Op.clear n ∉ Op.share (.collecting n) :: during.map .report
      ++ .unshare :: after.map .report := by
    simp
  have hother : EventSink.noOp ≠ .collecting n := EventSink.noConfusion
  rw [collected_run s hkept, emissions_append]
  simp only [emissions, emission?, Option.toList_none, List.nil_append, emissions_report,
    received_append, current_step_share, current_step_unshare]
  rw [EventSink.received_map_self, EventSink.received_map_of_ne hother, List.append_nil]

end EventSinks

end Pipework
