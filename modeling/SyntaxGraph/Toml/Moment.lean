import SyntaxGraph.Toml.Text

/-!
# Dates and times of a TOML document

A moment is a date, a time of day, or a date with a time of day, and the last may say
how far its clock is ahead of universal time.  Every part has a fixed number of digits
but for the fraction of a second, of which nine digits count.

A time stands behind its date after a `T` or one space.  What stands there and is no
time does not belong to the moment.
-/

set_option autoImplicit false

namespace SyntaxGraph.Toml

structure Date where
  year : Nat
  month : Nat
  day : Nat
deriving DecidableEq

structure TimeOfDay where
  hour : Nat
  minute : Nat
  second : Nat
  nanosecond : Nat
deriving DecidableEq

/-- Where a clock stands against universal time. -/
inductive Offset
  | universal
  | ahead (minutes : Int)
deriving DecidableEq

inductive Moment
  | calendar (date : Date)
  | clock (time : TimeOfDay)
  | instant (date : Date) (time : TimeOfDay) (offset : Option Offset)
deriving DecidableEq

/-! ## Numbers -/

/-- The number that digits write. -/
def decimal (digits : List Char) : Nat :=
  digits.foldl (fun value digit => 10 * value + (digit.toNat - '0'.toNat)) 0

/-- The number that the first `count` characters write, which are digits. -/
def number? (count : Nat) (input : Input) : Option (Nat × Input) :=
  let digits := input.take count
  if digits.length = count && digits.all Char.isDigit then
    some (decimal digits, input.drop count)
  else none

/-- A number of two digits from `least` to `most`. -/
def twoDigits? (least most : Nat) (input : Input) : Option (Nat × Input) := do
  let (value, rest) ← number? 2 input
  if least ≤ value ∧ value ≤ most then some (value, rest) else none

/-- The nanoseconds of a fraction of a second; digits behind the ninth do not count. -/
def nanoseconds? : Input → Option (Nat × Input)
  | '.' :: rest =>
    let digits := rest.takeWhile Char.isDigit
    if digits.isEmpty then none
    else some (decimal ((digits ++ List.replicate 9 '0').take 9), rest.drop digits.length)
  | _ => none

/-- A number with zeros in front of it up to the given width. -/
def padded (width n : Nat) : String :=
  let digits := Nat.toDigits 10 n
  String.ofList (List.replicate (width - digits.length) '0' ++ digits)

/-! ## Dates -/

namespace Date

def isLeapYear (year : Nat) : Bool :=
  year % 4 = 0 && (year % 100 ≠ 0 || year % 400 = 0)

def daysInMonth (year month : Nat) : Nat :=
  if month = 2 then if isLeapYear year then 29 else 28
  else if month = 4 || month = 6 || month = 9 || month = 11 then 30
  else 31

def read? (input : Input) : Option (Date × Input) := do
  let (year, rest) ← number? 4 input
  let (month, rest) ← twoDigits? 1 12 (← mark '-' rest)
  let (day, rest) ← twoDigits? 1 (daysInMonth year month) (← mark '-' rest)
  return (⟨year, month, day⟩, rest)

def text (date : Date) : String :=
  s!"{padded 4 date.year}-{padded 2 date.month}-{padded 2 date.day}"

end Date

/-! ## Times of day -/

namespace TimeOfDay

/-- A time of day; a minute may have a leap second. -/
def read? (input : Input) : Option (TimeOfDay × Input) := do
  let (hour, rest) ← twoDigits? 0 23 input
  let (minute, rest) ← twoDigits? 0 59 (← mark ':' rest)
  let (second, rest) ← twoDigits? 0 60 (← mark ':' rest)
  let (nanosecond, rest) := (nanoseconds? rest).getD (0, rest)
  return (⟨hour, minute, second, nanosecond⟩, rest)

/-- The digits of the fraction without the zeros at its end, behind a point; nothing
if the second is whole. -/
def fractionText (time : TimeOfDay) : String :=
  if time.nanosecond = 0 then ""
  else
    let digits := (padded 9 time.nanosecond).toList
    "." ++ String.ofList ((digits.reverse.dropWhile (· = '0')).reverse)

def text (time : TimeOfDay) : String :=
  s!"{padded 2 time.hour}:{padded 2 time.minute}:{padded 2 time.second}" ++ time.fractionText

end TimeOfDay

/-! ## Offsets -/

namespace Offset

def read? : Input → Option (Offset × Input)
  | [] => none
  | c :: rest =>
    if c = 'Z' || c = 'z' then some (.universal, rest)
    else if c = '+' || c = '-' then do
      let (hours, rest) ← twoDigits? 0 23 rest
      let (minutes, rest) ← twoDigits? 0 59 (← mark ':' rest)
      let distance : Int := 60 * hours + minutes
      return (.ahead (if c = '-' then -distance else distance), rest)
    else none

/-- The written form; a clock that is not behind is ahead, be it by nothing. -/
def text : Offset → String
  | .universal => "Z"
  | .ahead minutes =>
    let sign := if minutes < 0 then "-" else "+"
    let distance := minutes.natAbs
    s!"{sign}{padded 2 (distance / 60)}:{padded 2 (distance % 60)}"

end Offset

/-! ## Moments -/

namespace Moment

/-- The time of day behind a date, with its offset if it has one. -/
def timeBehind? : Input → Option ((TimeOfDay × Option Offset) × Input)
  | [] => none
  | c :: rest => do
    if c = 'T' || c = 't' || c = ' ' then
      let (time, rest) ← TimeOfDay.read? rest
      match Offset.read? rest with
      | some (offset, rest) => return ((time, some offset), rest)
      | none => return ((time, none), rest)
    else none

def read? (input : Input) : Option (Moment × Input) :=
  match Date.read? input with
  | some (date, rest) =>
    match timeBehind? rest with
    | some ((time, offset), rest) => some (.instant date time offset, rest)
    | none => some (.calendar date, rest)
  | none => (TimeOfDay.read? input).map fun (time, rest) => (.clock time, rest)

/-- The written form, in which a `T` stands between date and time. -/
def text : Moment → String
  | .calendar date => date.text
  | .clock time => time.text
  | .instant date time offset =>
    date.text ++ "T" ++ time.text ++ (offset.map Offset.text).getD ""

/-- The key of a moment's written form where the moment stands for a table. -/
def key : String := "$__toml_private_datetime"

end Moment

end SyntaxGraph.Toml
