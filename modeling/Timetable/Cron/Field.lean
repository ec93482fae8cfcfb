/-!
# The fields of a cron expression

Five fields restrict five components of a minute, in the order of `Field.all`. Each has a name and
bounds for its values. Weekdays are counted from 0 for Sunday.
-/

namespace Timetable

inductive Field where
  | minute
  | hour
  | day
  | month
  | weekday
  deriving DecidableEq, Repr

namespace Field

/-- The fields in the order of an expression. -/
def all : List Field := [minute, hour, day, month, weekday]

def name : Field → String
  | minute => "minute"
  | hour => "hour"
  | day => "day"
  | month => "month"
  | weekday => "weekday"

def lo : Field → Int
  | minute | hour | weekday => 0
  | day | month => 1

def hi : Field → Int
  | minute => 59
  | hour => 23
  | day => 31
  | month => 12
  | weekday => 6

theorem mem_all (f : Field) : f ∈ all := by
  cases f <;> decide

end Field

end Timetable
