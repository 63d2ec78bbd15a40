import PostOffice.ServiceQueue
import PostOffice.Requests
import PostOffice.Stamps
import PostOffice.Totals
import PostOffice.Jobs
import PostOffice.RunDay
import PostOffice.LostSignal
import PostOffice.Discipline
import PostOffice.Wakeups
import PostOffice.Offers
import PostOffice.Reports
import PostOffice.Shutdown
import PostOffice.Visits
import PostOffice.Config
import PostOffice.Arithmetic
import PostOffice.Logger
import PostOffice.Deadlock
import PostOffice.CtrlC
import PostOffice.StopFlag
import PostOffice.Cause
import PostOffice.Refinement
import PostOffice.Staff
import PostOffice.Races
import PostOffice.Capacity
import PostOffice.Limits
import PostOffice.Overflow
import PostOffice.OfficeHours
import PostOffice.Startup
import PostOffice.Spawn
import PostOffice.LogFile
import PostOffice.Work
import PostOffice.Standstill
