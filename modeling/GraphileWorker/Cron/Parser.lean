import GraphileWorker.Cron.Types
import GraphileWorker.Foundation.Parsing

/-! # The crontab text format

The two third-party readers, of JSON5 and of query strings, are parameters. An error carries
the line and the column of the rest of the input; its rendered texts are left out.
-/
namespace GraphileWorker.Cron
open Database Foundation.Parsing

inductive CrontabPart
  | minute
  | hours
  | days
  | months
  | daysOfWeek
  deriving DecidableEq

def CrontabPart.boundaries : CrontabPart → ℕ × ℕ
  | .minute => (0,59)
  | .hours => (0,23)
  | .days => (1,31)
  | .months => (1,12)
  | .daysOfWeek => (0,6)

def crontabNumber (part : CrontabPart) : Parser ℕ :=
  verify u32 fun v => decide (part.boundaries.1 ≤ v) && decide (v ≤ part.boundaries.2)

def crontabRange (part : CrontabPart) : Parser (ℕ × ℕ) :=
  verify (separatedPair (crontabNumber part) (char '-') (crontabNumber part)) fun r => decide (r.1 < r.2)

def crontabWildcard (part : CrontabPart) : Parser (Option ℕ) :=
  preceded (char '*') (opt (preceded (char '/') (crontabNumber part)))

def crontabValue (part : CrontabPart) : Parser CrontabValue :=
  alt (map (crontabRange part) fun r => .range r.1 r.2)
    (alt (map (crontabWildcard part) fun divider => (divider.map CrontabValue.step).getD .any)
      (map (crontabNumber part) .number))

def crontabValues (part : CrontabPart) : Parser (List CrontabValue) :=
  separatedList1 (char ',') (crontabValue part)

def nomCrontabTimer : Parser CrontabTimer := fun input => do
  let (input,minutes) ← terminated (crontabValues .minute) (char ' ') input
  let (input,hours) ← terminated (crontabValues .hours) (char ' ') input
  let (input,days) ← terminated (crontabValues .days) (char ' ') input
  let (input,months) ← terminated (crontabValues .months) (char ' ') input
  let (input,dows) ← crontabValues .daysOfWeek input
  return (input,⟨minutes,hours,days,months,dows⟩)

def nomTaskIdentifier : Parser String := fun input => do
  let (input,first) ← satisfy (fun c => c.isAlpha || c == '_') input
  let (input,others) ← many0 (satisfy fun c => c.isAlphanum || c == ':' || c == '_' || c == '-' || c == '/') input
  return (input,String.ofList (first :: others))

def isWhitespace (c : Char) : Bool :=
  (9 ≤ c.toNat && c.toNat ≤ 13) || (0x2000 ≤ c.toNat && c.toNat ≤ 0x200a) ||
    [0x20,0x85,0xa0,0x1680,0x2028,0x2029,0x202f,0x205f,0x3000].contains c.toNat

/-- The options before the text of `fill` is read. -/
structure QueryOption where
  id : Option String
  fill : Option (List Char)
  max : Option ℕ
  queue : Option String
  priority : Option ℤ
  jobKey : Option String
  jobKeyMode : Option CronKeyMode

/-- The third-party readers, each a function of the text it is given. -/
structure Readers where
  json5 : List Char → Option Json
  serdeQs : List Char → Option QueryOption

def noReaders : Readers := ⟨fun _ => none,fun _ => none⟩

def crontabFill : Parser CrontabFill := fun input => do
  let (input,w) ← opt (terminated u32 (char 'w')) input
  let (input,d) ← opt (terminated u32 (char 'd')) input
  let (input,h) ← opt (terminated u32 (char 'h')) input
  let (input,m) ← opt (terminated u32 (char 'm')) input
  let (input,s) ← opt (terminated u32 (char 's')) input
  let _ ← eof input
  return (input,⟨w.getD 0,d.getD 0,h.getD 0,m.getD 0,s.getD 0⟩)

section
variable (readers : Readers)

def crontabQuery : Parser QueryOption := fun input => do
  let (input,qs) ← preceded (char '?') (takeWhile1 fun c => !isWhitespace c) input
  match readers.serdeQs qs with
  | some query => return (input,query)
  | none => .error ⟨input,.fail,false⟩

def nomCrontabOpts : Parser CrontabOptions := fun input => do
  let (input,query) ← crontabQuery readers input
  let fill ← query.fill.mapM fun text => (crontabFill text).map Prod.snd
  return (input,⟨query.id,fill,query.max,query.queue,query.priority,query.jobKey,query.jobKeyMode⟩)

def nomCrontabPayload : Parser Json := fun input => do
  let (input,json) ← takeWhile1 (fun c => c != '\n' && c != '\r') input
  match readers.json5 json with
  | some payload => return (input,payload)
  | none => .error ⟨input,.fail,false⟩

def crontabLine : Parser (Option Crontab) := fun input => do
  let (input,timer) ← preceded space0 nomCrontabTimer input
  let (input,taskIdentifier) ← preceded space1 nomTaskIdentifier input
  let (input,options) ← opt (preceded space1 (nomCrontabOpts readers)) input
  let (input,payload) ← opt (preceded space1 (nomCrontabPayload readers)) input
  return (input,some ⟨timer,taskIdentifier,options.getD {},payload⟩)

def crontabComment : Parser (Option Crontab) :=
  value none (preceded (preceded space0 (char '#')) (takeWhile fun c => c != '\n' && c != '\r'))

def nomCrontab : Parser (List Crontab) :=
  map (many0 (preceded (not eof) (cut (terminated
      (alt crontabComment (alt (crontabLine readers) (value none space0)))
      (preceded space0 (alt lineEnding eof)))))) fun crontabs => crontabs.filterMap id

structure CrontabParseError where
  line : ℕ
  column : ℕ
  input : List Char
  errorKind : ErrorKind

def parseCrontab (crontab : List Char) : Except CrontabParseError (List Crontab) :=
  match nomCrontab readers crontab with
  | .ok (_,result) => .ok result
  | .error error =>
    let before := crontab.take (crontab.length - error.input.length)
    .error {
      line := before.count '\n' + 1
      column := (before.reverse.takeWhile fun c => c != '\n').length + 1
      input := error.input
      errorKind := error.code }

end

end GraphileWorker.Cron
