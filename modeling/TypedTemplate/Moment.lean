import TypedTemplate.Number.Reading

/-!
Dates and times of day, written as `1979-05-27`, `07:32:00.5` or both with a letter or a
blank between them. A reader gives what it has read and the rest of the text, and only
days and times that exist are read.
-/
namespace TypedTemplate

/-- A day of the calendar. -/
structure Date where
  year : Nat
  month : Nat
  day : Nat
  deriving DecidableEq, Repr

/-- A time of day. A minute may have a leap second at its end. -/
structure Clock where
  hour : Nat
  minute : Nat
  second : Nat
  nanosecond : Nat
  deriving DecidableEq, Repr

inductive Moment where
  | ofDate (date : Date)
  | ofClock (clock : Clock)
  /-- A time on a day; `offset` is how many minutes the clock is ahead of world time. -/
  | instant (date : Date) (clock : Clock) (offset : Option Int)
  deriving DecidableEq, Repr

namespace Date

def isLeapYear (year : Nat) : Bool := year % 4 = 0 && (year % 100 != 0 || year % 400 = 0)

def daysInMonth (year month : Nat) : Nat :=
  if month = 2 then if isLeapYear year then 29 else 28
  else if month = 4 ∨ month = 6 ∨ month = 9 ∨ month = 11 then 30
  else 31

/-- Whether the calendar has the day. -/
def isValid (date : Date) : Bool :=
  1 ≤ date.month && date.month ≤ 12 && 1 ≤ date.day
    && date.day ≤ daysInMonth date.year date.month

end Date

/-- Whether a day has the time. -/
def Clock.isValid (clock : Clock) : Bool :=
  clock.hour ≤ 23 && clock.minute ≤ 59 && clock.second ≤ 60

namespace Moment

/-- A number of exactly `count` digits. -/
def number? (count : Nat) (cs : List Char) : Option (Nat × List Char) :=
  let digits := cs.take count
  if digits.length = count ∧ digits.all Char.isDigit then
    some (Numeral.readDigits 0 digits, cs.drop count)
  else none

/-- A number of two digits with a mark in front of it. -/
def marked? (mark : Char) : List Char → Option (Nat × List Char)
  | c :: cs => if c = mark then number? 2 cs else none
  | [] => none

/-- Whether a date can only follow: four digits and a dash. -/
def startsDate (cs : List Char) : Bool := (cs.take 4).all Char.isDigit && cs[4]? = some '-'

/-- Whether a time of day can only follow: two digits and a colon. -/
def startsClock (cs : List Char) : Bool := (cs.take 2).all Char.isDigit && cs[2]? = some ':'

def date? (cs : List Char) : Option (Date × List Char) := do
  let (year, cs) ← number? 4 cs
  let (month, cs) ← marked? '-' cs
  let (day, cs) ← marked? '-' cs
  let date : Date := ⟨year, month, day⟩
  if date.isValid then some (date, cs) else none

/-- The billionths of a second behind a point. Further digits are passed over. -/
def fraction : List Char → Nat × List Char
  | '.' :: cs =>
    let digits := cs.takeWhile Char.isDigit
    if digits.isEmpty then (0, '.' :: cs)
    else (Numeral.readDigits 0 ((digits ++ List.replicate 9 '0').take 9), cs.drop digits.length)
  | cs => (0, cs)

def clock? (cs : List Char) : Option (Clock × List Char) := do
  let (hour, cs) ← number? 2 cs
  let (minute, cs) ← marked? ':' cs
  let (second, cs) ← marked? ':' cs
  let (nanosecond, cs) := fraction cs
  let clock : Clock := ⟨hour, minute, second, nanosecond⟩
  if clock.isValid then some (clock, cs) else none

/-- The hours and minutes behind the sign of an offset, in minutes. -/
def offsetSize? (cs : List Char) : Option (Int × List Char) := do
  let (hour, cs) ← number? 2 cs
  let (minute, cs) ← marked? ':' cs
  if hour ≤ 23 ∧ minute ≤ 59 then some ((60 * hour + minute : Nat), cs) else none

/-- How many minutes a clock is ahead of world time, if that is said. -/
def offset? : List Char → Option (Option Int × List Char)
  | '+' :: cs => (offsetSize? cs).map fun (size, cs) => (some size, cs)
  | '-' :: cs => (offsetSize? cs).map fun (size, cs) => (some (-size), cs)
  | 'Z' :: cs => some (some 0, cs)
  | 'z' :: cs => some (some 0, cs)
  | cs => some (none, cs)

/-- Whether a character may stand between a date and a time of day. -/
def isJoint (c : Char) : Bool := c = 'T' || c = 't' || c = ' '

/-- What follows a date. It has no time of day if none can be seen to start. -/
def afterDate? (date : Date) (cs : List Char) : Option (Moment × List Char) :=
  match cs with
  | c :: rest =>
    if isJoint c && startsClock rest then do
      let (clock, rest) ← clock? rest
      let (offset, rest) ← offset? rest
      return (.instant date clock offset, rest)
    else some (.ofDate date, cs)
  | [] => some (.ofDate date, [])

/-- Whether a text starts like a date or a time of day, and so cannot be a number. -/
def starts (cs : List Char) : Bool := startsDate cs || startsClock cs

/-- A date, a time of day, or both. -/
def read? (cs : List Char) : Option (Moment × List Char) :=
  if startsDate cs then do
    let (date, cs) ← date? cs
    afterDate? date cs
  else (clock? cs).map fun (clock, cs) => (.ofClock clock, cs)

end Moment

end TypedTemplate
