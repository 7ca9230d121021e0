import Statechart.Text.Basic
/-!
# Moment — dates and times of day

A date is a day of the Gregorian calendar from year 1 on, a time has microseconds, and a moment joins both, with the
offset of its zone in minutes if it has one.
-/
namespace Statechart
namespace Toml

structure Date where
  year : Nat
  month : Nat
  day : Nat
deriving DecidableEq, Repr

structure Time where
  hour : Nat
  minute : Nat
  second : Nat
  micro : Nat
deriving DecidableEq, Repr

inductive Moment where
  | date (d : Date)
  | time (t : Time)
  | both (d : Date) (t : Time) (offset : Option Int)
deriving DecidableEq, Repr

namespace Date

def isLeap (year : Nat) : Bool := year % 4 == 0 && (year % 100 != 0 || year % 400 == 0)

def daysIn (year month : Nat) : Nat :=
  if month = 2 then if isLeap year then 29 else 28
  else if month = 4 ∨ month = 6 ∨ month = 9 ∨ month = 11 then 30
  else 31

def isValid (d : Date) : Bool :=
  decide (1 ≤ d.year ∧ 1 ≤ d.month ∧ d.month ≤ 12 ∧ 1 ≤ d.day ∧ d.day ≤ daysIn d.year d.month)

end Date

namespace Moment

/-- A number with zeros in front. -/
def padded (width n : Nat) : Text := List.replicate (width - (Text.ofNat n).length) '0' ++ Text.ofNat n

def dateText (d : Date) : Text := padded 4 d.year ++ '-' :: padded 2 d.month ++ '-' :: padded 2 d.day

/-- Hours, minutes and seconds, and microseconds unless there are none. -/
def timeText (t : Time) : Text :=
  padded 2 t.hour ++ ':' :: padded 2 t.minute ++ ':' :: padded 2 t.second ++
    (if t.micro = 0 then [] else '.' :: padded 6 t.micro)

/-- An offset in hours and minutes. -/
def offsetText (offset : Int) : Text :=
  (if offset < 0 then '-' else '+') :: padded 2 (offset.natAbs / 60) ++ ':' :: padded 2 (offset.natAbs % 60)

/-- The moment as it would be written down. -/
def text : Moment → Text
  | date d => dateText d
  | time t => timeText t
  | both d t offset => dateText d ++ ' ' :: timeText t ++ (match offset with
    | none => []
    | some o => offsetText o)

/-- Numbers as the arguments of a call. -/
def arguments (ns : List Nat) : Text := Text.join ", ".toList (ns.map Text.ofNat)

def dateArguments (d : Date) : List Nat := [d.year, d.month, d.day]

/-- The parts of a time; seconds and microseconds of zero are left out from the end. -/
def timeArguments (t : Time) : List Nat :=
  if t.micro ≠ 0 then [t.hour, t.minute, t.second, t.micro]
  else if t.second ≠ 0 then [t.hour, t.minute, t.second]
  else [t.hour, t.minute]

/-- The zone of an offset as a call; a negative one is a day back and seconds forward. -/
def zoneCall (offset : Int) : Text :=
  if offset = 0 then "datetime.timezone.utc".toList
  else
    "datetime.timezone(datetime.timedelta(".toList ++
      (if offset < 0 then "days=-1, seconds=".toList ++ Text.ofInt ((offset + 1440) * 60)
       else "seconds=".toList ++ Text.ofInt (offset * 60)) ++ "))".toList

def kindName : Moment → Text
  | date _ => "datetime.date".toList
  | time _ => "datetime.time".toList
  | both _ _ _ => "datetime.datetime".toList

/-- The moment as a call that makes it. -/
def call (m : Moment) : Text :=
  m.kindName ++ '(' :: (match m with
    | date d => arguments (dateArguments d)
    | time t => arguments (timeArguments t)
    | both d t offset => arguments (dateArguments d ++ timeArguments t) ++ (match offset with
      | none => []
      | some o => ", tzinfo=".toList ++ zoneCall o)) ++ [')']

end Moment
end Toml
end Statechart
