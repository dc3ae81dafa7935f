import Pipework.Document

/-!
# Schedules

A schedule runs a pipeline by a cron expression, or from a start time on at an interval.
-/

namespace Pipework

structure Schedule where
  name : Option String := none
  cronExpression : Option String := none
  startTime : Option Time.Instant := none
  endTime : Option Time.Instant := none
  /-- Seconds between two runs. -/
  intervalSecond : Option Nat := none
  /-- Whether missed runs are made up for. -/
  catchup : Bool := false
  deriving DecidableEq, Repr, Inhabited

namespace Schedule

def cron (expression : String) : Schedule := { cronExpression := expression }

def interval (start : Time.Instant) (seconds : Nat) : Schedule :=
  { startTime := start, intervalSecond := seconds }

def withName (s : Schedule) (name : String) : Schedule := { s with name }

/-- A cron expression has at least five words. -/
def isCron (expression : String) : Bool := 5 ≤ Text.words expression

/-- The end, where both ends are given, has to come after the start. -/
def orderError? (s : Schedule) : Option String :=
  match s.startTime, s.endTime with
  | some first, some last =>
    if first.before last then none else some "the end time must be after the start time"
  | _, _ => none

/-- Why the schedule cannot be used. -/
def error? (s : Schedule) : Option String :=
  let isInterval := s.startTime.isSome && s.intervalSecond.isSome
  match s.cronExpression with
  | some expression =>
    if isInterval then some "a schedule is either cron based or interval based, not both"
    else if isCron expression then s.orderError?
    else some ("'" ++ expression ++ "' is not a valid cron expression")
  | none =>
    if isInterval then s.orderError?
    else some "either a cron expression or a start time and interval are required"

instance : ToJson Schedule where
  toJson s := Json.object <|
    Json.member? "name" s.name ++ Json.member? "cron_expression" s.cronExpression
      ++ Json.member? "start_time" s.startTime ++ Json.member? "end_time" s.endTime
      ++ Json.member? "interval_second" s.intervalSecond ++ Json.member "catchup" s.catchup

def read? {δ : Type} [Document δ] : Document.Reader δ Schedule :=
  Document.strictRecord? do
    let name ← Document.Fields.optional "name" Document.text?
    let cronExpression ← Document.Fields.optional "cron_expression" Document.text?
    let startTime ← Document.Fields.optional "start_time" Document.instant?
    let endTime ← Document.Fields.optional "end_time" Document.instant?
    let intervalSecond ← Document.Fields.optional "interval_second" Document.natural?
    let catchup ← Document.Fields.defaulted "catchup" Document.bool? false
    pure { name, cronExpression, startTime, endTime, intervalSecond, catchup }

end Schedule

end Pipework
