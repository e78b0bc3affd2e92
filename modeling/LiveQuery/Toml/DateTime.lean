import LiveQuery.Text.Digits
import LiveQuery.Toml.Reader

namespace LiveQuery.Toml

structure Date where
  year : Nat
  month : Nat
  day : Nat
  deriving DecidableEq

structure ClockTime where
  hour : Nat
  minute : Nat
  second : Nat
  nanos : Nat
  deriving DecidableEq

/-- The distance from universal time. -/
inductive Offset where
  | utc
  | minutes (n : Int)
  deriving DecidableEq

/-- A day, a time of any day, or a time of one day. -/
inductive DateTime where
  | day (date : Date)
  | clock (time : ClockTime)
  | moment (date : Date) (time : ClockTime) (offset : Option Offset)
  deriving DecidableEq

def isLeapYear (year : Nat) : Bool := year % 4 = 0 && (year % 100 ≠ 0 || year % 400 = 0)

def daysInMonth (year month : Nat) : Nat :=
  if month = 2 then if isLeapYear year then 29 else 28
  else if month = 4 || month = 6 || month = 9 || month = 11 then 30
  else 31

def Date.text (d : Date) : String :=
  Text.decimal 4 d.year ++ "-" ++ Text.decimal 2 d.month ++ "-" ++ Text.decimal 2 d.day

/-- Hours to seconds, and a fraction of a second without trailing zeros if it is not zero. -/
def ClockTime.text (t : ClockTime) : String :=
  let fraction := ((Text.decimal 9 t.nanos).toList.reverse.dropWhile (· = '0')).reverse
  Text.decimal 2 t.hour ++ ":" ++ Text.decimal 2 t.minute ++ ":" ++ Text.decimal 2 t.second ++
    (if t.nanos = 0 then "" else "." ++ String.ofList fraction)

def Offset.text : Offset → String
  | utc => "Z"
  | minutes n =>
    (if n < 0 then "-" else "+") ++ Text.decimal 2 (n.natAbs / 60) ++ ":" ++ Text.decimal 2 (n.natAbs % 60)

def DateTime.text : DateTime → String
  | day date => date.text
  | clock time => time.text
  | moment date time offset => date.text ++ "T" ++ time.text ++ (offset.map Offset.text).getD ""

namespace Reader

/-- A number of exactly so many digits. -/
def fixedDigits : (count : Nat) → (start : Nat) → Reader Nat
  | 0, n => pure n
  | count + 1, n => do
    let c ← next
    if Text.isDigit c then fixedDigits count (10 * n + Text.digitValue c) else failure

/-- Two digits between two bounds. -/
def twoDigits (low high : Nat) : Reader Nat := do
  let n ← fixedDigits 2 0
  if low ≤ n && n ≤ high then return n else failure

def date : Reader Date := do
  let year ← fixedDigits 4 0
  word "-"
  let month ← twoDigits 1 12
  word "-"
  let day ← twoDigits 1 31
  if day ≤ daysInMonth year month then return ⟨year, month, day⟩ else failure

/-- A time of day. Digits of the fraction after the ninth do not count. -/
def clockTime : Reader ClockTime := do
  let hour ← twoDigits 0 23
  word ":"
  let minute ← twoDigits 0 59
  word ":"
  let second ← twoDigits 0 60
  let nanos ← if ← accept "." then
      let ds := (← many Text.isDigit).take 9
      if ds.isEmpty then failure
      pure (Text.ofDigits ds * Text.tenTo (9 - ds.length))
    else pure 0
  return ⟨hour, minute, second, nanos⟩

/-- An offset, if there is one, of less than a day. -/
def offset? : Reader (Option Offset) := do
  if ← acceptChar fun c => c = 'Z' || c = 'z' then return some .utc
  let sign : Int ← if ← accept "+" then pure 1 else if ← accept "-" then pure (-1) else return none
  let hour ← twoDigits 0 23
  word ":"
  let minute ← twoDigits 0 59
  return some (.minutes (sign * (60 * hour + minute)))

/-- The moment of a day that a time of day after it gives. A single blank may stand before the time. -/
def moment (date : Date) : Reader DateTime := do
  let c ← next
  if !(c = 'T' || c = 't' || c = ' ') then failure
  let time ← clockTime
  return .moment date time (← offset?)

/-- A date, a time of day, or both, in their usual form. -/
def dateTime : Reader DateTime :=
  (do
    let day ← date
    moment day <|> pure (.day day)) <|>
  DateTime.clock <$> clockTime

end Reader

/-- The date-time that a whole text writes. -/
def DateTime.read? (s : String) : Option DateTime :=
  match Reader.dateTime s.toList with
  | some (d, []) => some d
  | _ => none

end LiveQuery.Toml
