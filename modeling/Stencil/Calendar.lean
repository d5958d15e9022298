import Stencil.Number.Decimal

/-!
Calendar dates and times of day, and their texts.
-/

namespace Stencil

open Number (natText paddedText)

structure Date where
  year : Nat
  month : Nat
  day : Nat
deriving DecidableEq

/-- A date and a time of day; `offset` is the distance from universal time in seconds, where it
is known. -/
structure Moment where
  date : Date
  hour : Nat
  minute : Nat
  second : Nat
  microsecond : Nat
  offset : Option Int
deriving DecidableEq

namespace Date

/-- Year, month and day with hyphens between them. -/
def text (d : Date) : String :=
  paddedText 4 d.year ++ "-" ++ paddedText 2 d.month ++ "-" ++ paddedText 2 d.day

def isLeap (year : Nat) : Bool := year % 4 == 0 && (year % 100 != 0 || year % 400 == 0)

def daysIn (year month : Nat) : Nat :=
  if month == 2 then if isLeap year then 29 else 28
  else if month == 4 || month == 6 || month == 9 || month == 11 then 30
  else 31

/-- The date exists in the calendar. -/
def exists? (d : Date) : Bool :=
  1 ≤ d.year && d.year ≤ 9999 && 1 ≤ d.month && d.month ≤ 12 && 1 ≤ d.day &&
    d.day ≤ daysIn d.year d.month

/-- How a message shows the date as a value. -/
def shown (d : Date) : String :=
  "datetime.date(" ++ natText d.year ++ ", " ++ natText d.month ++ ", " ++ natText d.day ++ ")"

end Date

namespace Moment

/-- The offset as a sign, hours and minutes, and seconds if there are any. -/
def offsetText (seconds : Int) : String :=
  let n := seconds.natAbs
  let tail := if n % 60 == 0 then "" else ":" ++ paddedText 2 (n % 60)
  (if seconds < 0 then "-" else "+") ++ paddedText 2 (n / 3600) ++ ":" ++
    paddedText 2 (n / 60 % 60) ++ tail

/-- Date and time with `between` between them, the fraction and the offset where there are any. -/
def textWith (between : String) (m : Moment) : String :=
  let fraction := if m.microsecond == 0 then "" else "." ++ paddedText 6 m.microsecond
  let zone := match m.offset with
    | none => ""
    | some s => offsetText s
  m.date.text ++ between ++ paddedText 2 m.hour ++ ":" ++ paddedText 2 m.minute ++ ":" ++
    paddedText 2 m.second ++ fraction ++ zone

def text (m : Moment) : String := m.textWith " "

def isoText (m : Moment) : String := m.textWith "T"

/-- How a message shows an offset: a negative one as a day back and the rest forward. -/
def offsetShown (seconds : Int) : String :=
  if seconds = 0 then "datetime.timezone.utc"
  else
    let inner :=
      if seconds < 0 then "days=-1, seconds=" ++ natText (86400 + seconds).toNat
      else "seconds=" ++ natText seconds.toNat
    "datetime.timezone(datetime.timedelta(" ++ inner ++ "))"

/-- How a message shows the moment as a value: zero seconds and fractions are left out. -/
def shown (m : Moment) : String :=
  let fields := [m.date.year, m.date.month, m.date.day, m.hour, m.minute]
  let tail :=
    if m.microsecond != 0 then [m.second, m.microsecond]
    else if m.second != 0 then [m.second]
    else []
  let zone := match m.offset with
    | none => ""
    | some s => ", tzinfo=" ++ offsetShown s
  "datetime.datetime(" ++ ", ".intercalate ((fields ++ tail).map natText) ++ zone ++ ")"

end Moment

end Stencil
