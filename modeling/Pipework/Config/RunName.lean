import Pipework.Time.Instant

/-!
# Names of runs

A run name template may hold `{date}` and `{time}`, which stand for the start of the run in UTC.
-/

namespace Pipework.RunName

def datePlaceholder : String := "\x7bdate\x7d"

def timePlaceholder : String := "\x7btime\x7d"

/-- Year, month and day. -/
def dateText (t : Time.Instant) : String :=
  let d := t.date
  Time.Instant.yearText d.year ++ "_" ++ Time.Instant.padded 2 d.month ++ "_"
    ++ Time.Instant.padded 2 d.day

/-- Hour, minute, second and microsecond. -/
def timeText (t : Time.Instant) : String :=
  let (h, m, s) := t.clock
  Time.Instant.padded 2 h ++ "_" ++ Time.Instant.padded 2 m ++ "_" ++ Time.Instant.padded 2 s
    ++ "_" ++ Time.Instant.padded 6 (t.fraction / 1000)

/-- The template with its placeholders filled in, first the date and then the time. -/
def format (template : String) (t : Time.Instant) : String :=
  Text.replace timePlaceholder (timeText t)
    (Text.replace datePlaceholder (dateText t) template)

/-- The template for runs of a pipeline that have none of their own. -/
def default (pipeline : String) : String :=
  pipeline ++ "-" ++ datePlaceholder ++ "-" ++ timePlaceholder

end Pipework.RunName
