import ScriptDriver.Text.Basic
/-!
# Moment — dates and times

A moment is a day, a time of day, or both, and then possibly with the distance from universal time.
-/
namespace ScriptDriver.Toml

structure Date where
  year : Nat
  month : Nat
  day : Nat
  deriving DecidableEq

/-- A time of day, with millionths of a second. -/
structure Clock where
  hour : Nat
  minute : Nat
  second : Nat
  millionths : Nat
  deriving DecidableEq

inductive Moment where
  | date (d : Date)
  | clock (c : Clock)
  /-- A day and a time, with the minutes that the clock is ahead of universal time if that is said. -/
  | both (d : Date) (c : Clock) (ahead : Option Int)
  deriving DecidableEq

def isLeapYear (year : Nat) : Bool := year % 4 = 0 && (year % 100 ≠ 0 || year % 400 = 0)

def daysIn (year month : Nat) : Nat :=
  if month = 2 then (if isLeapYear year then 29 else 28)
  else if month = 4 ∨ month = 6 ∨ month = 9 ∨ month = 11 then 30
  else 31

/-- Whether the calendar has such a day; it begins with the year 1. -/
def Date.isValid (d : Date) : Bool :=
  1 ≤ d.year && 1 ≤ d.month && d.month ≤ 12 && 1 ≤ d.day && d.day ≤ daysIn d.year d.month

def listing (ns : List Nat) : Text := Text.joinWith ", " (ns.map Text.ofNat)

/-- The numbers of a time: hour and minute, and then what is not zero or followed by something that is not. -/
def Clock.numbers (c : Clock) : List Nat :=
  [c.hour, c.minute] ++
    (if c.millionths ≠ 0 then [c.second, c.millionths] else if c.second ≠ 0 then [c.second] else [])

/-- How the distance from universal time is spelled. -/
def zoneSpelling (minutes : Int) : Text :=
  if minutes = 0 then "datetime.timezone.utc"
  else
    let day : Int := 1440
    let days : Text := if minutes < 0 then "days=" ++ Text.ofInt (minutes.fdiv day) ++ ", " else []
    "datetime.timezone(datetime.timedelta(" ++ days ++ "seconds=" ++ Text.ofInt (minutes.fmod day * 60) ++ "))"

def Moment.spelling : Moment → Text
  | .date d => "datetime.date(" ++ listing [d.year, d.month, d.day] ++ ")"
  | .clock c => "datetime.time(" ++ listing c.numbers ++ ")"
  | .both d c ahead =>
    "datetime.datetime(" ++ listing ([d.year, d.month, d.day] ++ c.numbers) ++
      (match ahead with
        | some minutes => ", tzinfo=" ++ zoneSpelling minutes
        | none => []) ++ ")"

end ScriptDriver.Toml
