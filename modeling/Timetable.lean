import Timetable.Scheduler.Operation
import Timetable.Scheduler.Tally
import Timetable.ValueSet.Membership
import Timetable.Proofs.LeastMember
import Timetable.Proofs.InsertionSequence
import Timetable.Proofs.SuccessorQuery
import Timetable.Proofs.RealDate
import Timetable.Proofs.DayCount
import Timetable.Proofs.MinuteCount
import Timetable.Proofs.SecondCount
import Timetable.Proofs.NumeralOrder
import Timetable.Proofs.TimestampText
import Timetable.Proofs.ReadSchedule
import Timetable.Proofs.FieldGrammar
import Timetable.Proofs.SearchPass
import Timetable.Proofs.SearchRun
import Timetable.Proofs.SearchBound
import Timetable.Proofs.RunSequence
import Timetable.Proofs.ClockMove
import Timetable.Proofs.JobLookup
import Timetable.Proofs.OperationHistory
import Timetable.Proofs.DueRuns
import Timetable.Proofs.ClockSetting
import Timetable.Proofs.SingleStart
import Timetable.Proofs.OperationAnswer
import Timetable.Proofs.Independence
import Timetable.Proofs.FailedOperation
import Timetable.Proofs.JobRecord
import Timetable.Proofs.DisabledJobs
import Timetable.Proofs.OverlongNumeral
import Timetable.Proofs.ReadFault
import Timetable.Proofs.ErrorLocality
import Timetable.Proofs.FlawedJob
import Timetable.Proofs.WeekdayCycle
import Timetable.Proofs.PossibleDates
import Timetable.Proofs.NextDue
import Timetable.Proofs.WithheldJobs
import Timetable.Proofs.CalendarPeriod
import Timetable.Proofs.PendingRun
import Timetable.Proofs.Registration
import Timetable.Proofs.OrderedJobs
import Timetable.Proofs.QuotientRounding
import Timetable.Proofs.RunCounts
