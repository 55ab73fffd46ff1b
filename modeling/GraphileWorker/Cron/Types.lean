import GraphileWorker.Foundation.LocalTime
import GraphileWorker.Database.AddJobs

/-! # Crontab entries

Instants and calendar times are nanoseconds since the epoch, on the clock of UTC and on a
local clock. `u32` arithmetic wraps.
-/
namespace GraphileWorker.Cron
open Database

abbrev Instant := ℤ
abbrev NaiveDateTime := ℤ

def oneSecond : ℤ := 1000000000
def oneMinute : ℤ := 60 * oneSecond

def nanosecond (t : NaiveDateTime) : ℤ := t % oneSecond
def second (t : NaiveDateTime) : ℤ := t / oneSecond % 60
def minute (t : NaiveDateTime) : ℕ := (t / oneMinute % 60).toNat
def hour (t : NaiveDateTime) : ℕ := (t / (60 * oneMinute) % 24).toNat

def dayNumber (t : NaiveDateTime) : ℤ := t / (24 * 60 * oneMinute)

/-- The day of a year that starts in March, and the month counted from March. -/
def dayOfMarchYear (n : ℤ) : ℤ :=
  let era := (n + 719468) % 146097
  let year := (era - era / 1460 + era / 36524 - era / 146096) / 365
  era - (365 * year + year / 4 - year / 100)

def monthFromMarch (n : ℤ) : ℤ := (5 * dayOfMarchYear n + 2) / 153

def day (t : NaiveDateTime) : ℕ :=
  (dayOfMarchYear (dayNumber t) - (153 * monthFromMarch (dayNumber t) + 2) / 5 + 1).toNat

def month (t : NaiveDateTime) : ℕ :=
  ((monthFromMarch (dayNumber t) + 2) % 12 + 1).toNat

def weekdayFromMonday (t : NaiveDateTime) : ℕ := ((dayNumber t + 3) % 7 + 1).toNat

inductive CrontabValue
  | number (n : ℕ)
  | range (low high : ℕ)
  | step (n : ℕ)
  | any
  deriving DecidableEq

def CrontabValue.matchValue (value stepOffset : ℕ) : CrontabValue → Bool
  | .number n => value == n
  | .range low high => decide (low ≤ value) && decide (value ≤ high)
  | .step 0 => false
  | .step n => value % n == stepOffset
  | .any => true

structure CrontabTimer where
  minutes : List CrontabValue := [.any]
  hours : List CrontabValue := [.any]
  days : List CrontabValue := [.any]
  months : List CrontabValue := [.any]
  dows : List CrontabValue := [.any]

def CrontabTimer.shouldRunAt (timer : CrontabTimer) (t : NaiveDateTime) : Bool :=
  (timer.minutes.any (CrontabValue.matchValue (minute t) 0)) &&
    (timer.hours.any (CrontabValue.matchValue (hour t) 0)) &&
    (timer.days.any (CrontabValue.matchValue (day t) 1)) &&
    (timer.months.any (CrontabValue.matchValue (month t) 1)) &&
    (timer.dows.any (CrontabValue.matchValue (weekdayFromMonday t) 1))

inductive Weekday
  | mon
  | tue
  | wed
  | thu
  | fri
  | sat
  | sun
  deriving DecidableEq

def Weekday.numberFromMonday : Weekday → ℕ
  | .mon => 1
  | .tue => 2
  | .wed => 3
  | .thu => 4
  | .fri => 5
  | .sat => 6
  | .sun => 7

def Weekday.numDaysFromSunday : Weekday → ℕ
  | .mon => 1
  | .tue => 2
  | .wed => 3
  | .thu => 4
  | .fri => 5
  | .sat => 6
  | .sun => 0

inductive CrontabField
  | minute
  | hour
  | day
  | month
  deriving DecidableEq

def CrontabField.bounds : CrontabField → ℕ × ℕ
  | .minute => (0,59)
  | .hour => (0,23)
  | .day => (1,31)
  | .month => (1,12)

inductive CrontabTimerError
  | valueOutOfRange (field : CrontabField) (value min max : ℕ)
  deriving DecidableEq

def CrontabValue.validate (field : CrontabField) (value : ℕ) : Except CrontabTimerError ℕ :=
  if value < field.bounds.1 ∨ value > field.bounds.2 then
    .error (.valueOutOfRange field value field.bounds.1 field.bounds.2)
  else .ok value

/-- `CrontabValue::number`; the variant of that name is the constructor. -/
def CrontabValue.numberOf (field : CrontabField) (value : ℕ) : Except CrontabTimerError CrontabValue := do
  return .number (← validate field value)

def CrontabTimer.weeklyOn (weekday : Weekday) (hour minute : ℕ) : Except CrontabTimerError CrontabTimer := do
  return { minutes := [← CrontabValue.numberOf .minute minute]
           hours := [← CrontabValue.numberOf .hour hour]
           dows := [.number weekday.numberFromMonday] }

structure CrontabFill where
  w : ℕ
  d : ℕ
  h : ℕ
  m : ℕ
  s : ℕ
  deriving DecidableEq

def CrontabFill.toSecs (fill : CrontabFill) : ℕ :=
  (fill.w * 604800 + fill.d * 86400 + fill.h * 3600 + fill.m * 60 + fill.s) % 4294967296

/-- The key modes of a crontab; `unsafe_dedupe` is not among them. -/
inductive CronKeyMode
  | replace
  | preserveRunAt
  deriving DecidableEq

structure CrontabOptions where
  id : Option String := none
  fill : Option CrontabFill := none
  max : Option ℕ := none
  queue : Option String := none
  priority : Option ℤ := none
  jobKey : Option String := none
  jobKeyMode : Option CronKeyMode := none

structure Crontab where
  timer : CrontabTimer := {}
  taskIdentifier : String
  options : CrontabOptions := {}
  payload : Option Json := none

def Crontab.shouldRunAt (crontab : Crontab) (t : NaiveDateTime) : Bool := crontab.timer.shouldRunAt t

def Crontab.identifier (crontab : Crontab) : String := crontab.options.id.getD crontab.taskIdentifier

end GraphileWorker.Cron
