import DocComment.Number.Decimal

/-!
Days and times of day as settings files give them. They are no type of setting: a file that has one
gives its text, in which a capital `T` stands between day and time, a fraction of a second has no
zeros at its end, and the distance from universal time is never a negative zero.
-/

namespace DocComment.Settings

structure Date where
  year : Nat
  month : Nat
  day : Nat
  deriving DecidableEq, Repr

structure TimeOfDay where
  hour : Nat
  minute : Nat
  second : Nat
  /-- The digits of the fraction of a second, nine at most. -/
  fraction : List Char
  deriving DecidableEq, Repr

inductive Offset where
  | zero
  | minutes (east : Int)
  deriving DecidableEq, Repr

inductive Moment where
  | onlyDate (date : Date)
  | onlyTime (time : TimeOfDay)
  | dateTime (date : Date) (time : TimeOfDay) (offset : Option Offset)
  deriving DecidableEq, Repr

namespace Moment

def isLeap (year : Nat) : Bool := year % 4 == 0 && (year % 100 != 0 || year % 400 == 0)

def daysIn (year month : Nat) : Nat :=
  if month = 2 then if isLeap year then 29 else 28
  else if [4, 6, 9, 11].contains month then 30
  else 31

/-- A number of exactly so many digits that lies between two bounds. -/
def number? (width least greatest : Nat) (cs : List Char) : Option (Nat × List Char) := do
  let digits := cs.take width
  guard (digits.length = width)
  let value ← Decimal.natural? 10 digits
  guard (least ≤ value ∧ value ≤ greatest)
  some (value, cs.drop width)

def skip? (mark : Char) : List Char → Option (List Char)
  | [] => none
  | c :: cs => if c = mark then some cs else none

def date? (cs : List Char) : Option (Date × List Char) := do
  let (year, cs) ← number? 4 0 9999 cs
  let (month, cs) ← number? 2 1 12 (← skip? '-' cs)
  let (day, cs) ← number? 2 1 (daysIn year month) (← skip? '-' cs)
  some ({ year, month, day }, cs)

/-- The digits behind a point, as far as they are kept; without a digit there is no fraction. -/
def fraction (cs : List Char) : List Char × List Char :=
  match cs with
  | '.' :: digits =>
      let kept := (digits.takeWhile Char.isDigit).take 9
      if kept.isEmpty then ([], cs) else (kept, digits.dropWhile Char.isDigit)
  | _ => ([], cs)

/-- A second may be the leap second of its minute. -/
def timeOfDay? (cs : List Char) : Option (TimeOfDay × List Char) := do
  let (hour, cs) ← number? 2 0 23 cs
  let (minute, cs) ← number? 2 0 59 (← skip? ':' cs)
  let (second, cs) ← number? 2 0 60 (← skip? ':' cs)
  let (fraction, cs) := fraction cs
  some ({ hour, minute, second, fraction }, cs)

def offset? (cs : List Char) : Option (Offset × List Char) :=
  let distance? (cs : List Char) : Option (Nat × List Char) := do
    let (hours, cs) ← number? 2 0 23 cs
    let (minutes, cs) ← number? 2 0 59 (← skip? ':' cs)
    some (hours * 60 + minutes, cs)
  match cs with
  | 'Z' :: cs | 'z' :: cs => some (.zero, cs)
  | '+' :: cs => (distance? cs).map fun (east, cs) => (.minutes east, cs)
  | '-' :: cs => (distance? cs).map fun (west, cs) => (.minutes (-west), cs)
  | _ => none

def timeBehind? : List Char → Option (TimeOfDay × List Char)
  | c :: cs => if c = 'T' ∨ c = 't' ∨ c = ' ' then timeOfDay? cs else none
  | [] => none

def read? (cs : List Char) : Option (Moment × List Char) :=
  match date? cs with
  | none => (timeOfDay? cs).map fun (time, cs) => (.onlyTime time, cs)
  | some (date, cs) =>
      match timeBehind? cs with
      | none => some (.onlyDate date, cs)
      | some (time, cs) =>
          match offset? cs with
          | none => some (.dateTime date time none, cs)
          | some (offset, cs) => some (.dateTime date time (some offset), cs)

def padded (width value : Nat) : List Char :=
  let digits := Nat.toDigits 10 value
  List.replicate (width - digits.length) '0' ++ digits

end Moment

open Moment (padded)

def Date.text (date : Date) : List Char :=
  padded 4 date.year ++ '-' :: padded 2 date.month ++ '-' :: padded 2 date.day

def TimeOfDay.text (time : TimeOfDay) : List Char :=
  let fraction := (time.fraction.reverse.dropWhile (· == '0')).reverse
  padded 2 time.hour ++ ':' :: padded 2 time.minute ++ ':' :: padded 2 time.second ++
    if fraction.isEmpty then [] else '.' :: fraction

def Offset.text : Offset → List Char
  | .zero => ['Z']
  | .minutes east =>
      (if east < 0 then '-' else '+') :: padded 2 (east.natAbs / 60) ++
        ':' :: padded 2 (east.natAbs % 60)

def Moment.text : Moment → List Char
  | .onlyDate date => date.text
  | .onlyTime time => time.text
  | .dateTime date time offset => date.text ++ 'T' :: time.text ++ (offset.map Offset.text).getD []

example : (Moment.read? "2024-02-29 23:59:60.1250-00:00".toList).map (·.1.text) =
    some "2024-02-29T23:59:60.125+00:00".toList := by
  decide

end DocComment.Settings
