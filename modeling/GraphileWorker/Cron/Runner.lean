import GraphileWorker.Cron.Types

/-! # The parts of the cron loop

Setting the seconds of a `DateTime` resolves its local time in the zone again and is refused
without a single offset. Arithmetic looks up the offset of the resulting instant.
-/
namespace GraphileWorker.Cron
open Foundation

def withSecond (z : Zone) (s : ℤ) (t : DateTime) : Option DateTime :=
  z.fromLocal (t.naiveLocal - second t.naiveLocal * oneSecond + s * oneSecond)

def withNanosecond (z : Zone) (n : ℤ) (t : DateTime) : Option DateTime :=
  z.fromLocal (t.naiveLocal - nanosecond t.naiveLocal + n)

/-- `none` where one of the two results cannot be unwrapped. -/
def roundDateMinute (z : Zone) (datetime : Instant) (roundUp : Bool) : Option Instant := do
  let t ← withSecond z 0 (z.fromUtc datetime)
  let t ← withNanosecond z 0 t
  return if roundUp then t.utc + oneMinute else t.utc

/-- The local time of the reading has a single offset after its seconds are cleared,
and after its nanoseconds are cleared as well. -/
def SingleMinute (z : Zone) (t : Instant) : Prop :=
  (z.offsetFromLocal (z.toLocal t - second (z.toLocal t) * oneSecond)).isSingle = true ∧
    (z.offsetFromLocal (z.toLocal t - z.toLocal t % oneMinute)).isSingle = true

instance (z : Zone) (t : Instant) : Decidable (SingleMinute z t) := inferInstanceAs (Decidable (_ ∧ _))

theorem clear_seconds_nanoseconds (n : ℤ) :
    n - second n * oneSecond - nanosecond (n - second n * oneSecond) = n - n % oneMinute := by
  simp only [second,nanosecond,oneMinute,oneSecond]
  omega

theorem roundDateMinute_isSome_iff {z : Zone} {t : Instant} {roundUp : Bool} :
    (roundDateMinute z t roundUp).isSome = true ↔ SingleMinute z t := by
  have hw : withSecond z 0 (z.fromUtc t) = z.fromLocal (z.toLocal t - second (z.toLocal t) * oneSecond) := by
    simp [withSecond,Zone.fromUtc,DateTime.naiveLocal,Zone.toLocal]
  unfold SingleMinute
  rw [← Zone.isSome_fromLocal,← Zone.isSome_fromLocal,roundDateMinute,hw]
  cases hs : z.fromLocal (z.toLocal t - second (z.toLocal t) * oneSecond) with
  | none => simp
  | some u =>
    -- the second step starts from the local time that the first one reached
    have hl := Zone.naiveLocal_of_fromLocal hs
    have hn : withNanosecond z 0 u = z.fromLocal (z.toLocal t - z.toLocal t % oneMinute) := by
      rw [withNanosecond,hl,add_zero,clear_seconds_nanoseconds]
    cases hm : z.fromLocal (z.toLocal t - z.toLocal t % oneMinute) <;> simp [hn,hm]

structure KnownCrontab where
  identifier : String
  knownSince : Instant
  lastExecution : Option Instant

/-- Known entries with the instant before which they are not backfilled, and
the identifiers of the others. -/
def getBackfillAndUnknownItems (crontabs : List Crontab) (known : List KnownCrontab) :
    List (Crontab × Instant) × List String :=
  (crontabs.filterMap fun c => (known.find? fun k => k.identifier == c.identifier).map fun k =>
      (c,k.lastExecution.getD k.knownSince),
    (crontabs.filter fun c => !known.any fun k => k.identifier == c.identifier).map Crontab.identifier)

def largestBackfill (items : List (Crontab × Instant)) : Option ℕ :=
  (items.filterMap fun i => i.1.options.fill.map CrontabFill.toSecs).max?

structure Config where
  crontabs : List Crontab
  useLocalTime : Bool

def calendarTime (z : Zone) (useLocalTime : Bool) (ts : Instant) : NaiveDateTime :=
  if useLocalTime then z.toLocal ts else ts

/-- The window test of the backfill; `num_seconds` cuts the fraction off. -/
def withinFill (start : Instant) (fill : CrontabFill) (notBefore ts : Instant) : Bool :=
  decide ((start - ts).tdiv oneSecond ≤ fill.toSecs) && decide (notBefore ≤ ts)

def toBackfill (z : Zone) (cfg : Config) (start : Instant) (items : List (Crontab × Instant))
    (ts : Instant) : List Crontab :=
  items.filterMap fun (c,notBefore) => do
    let backfill ← c.options.fill
    if withinFill start backfill notBefore ts && c.shouldRunAt (calendarTime z cfg.useLocalTime ts) then some c
    else none

def collectJobsToSchedule (z : Zone) (cfg : Config) (ts : Instant) : List Crontab :=
  cfg.crontabs.filter fun c => c.shouldRunAt (calendarTime z cfg.useLocalTime ts)

end GraphileWorker.Cron
