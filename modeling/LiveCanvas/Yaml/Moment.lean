import LiveCanvas.Text.Basic

/-!
# Dates and times

A date has a year of four digits, a month and a day.  A time of day may follow, with a fraction of
a second and a distance from universal time.
-/

namespace LiveCanvas
namespace Yaml

/-- How far a clock is from universal time, in minutes. -/
structure Zone where
  behind : Bool
  minutes : Nat
deriving DecidableEq, Repr

/-- A time of day. -/
structure DayTime where
  hour : Nat
  minute : Nat
  second : Nat
  fraction : List Rune
  zone : Option Zone
deriving DecidableEq, Repr

/-- A date, or a date with a time of day. -/
structure Moment where
  year : Nat
  month : Nat
  day : Nat
  time : Option DayTime
deriving DecidableEq, Repr

namespace Moment

/-- Between `least` and `most` digits as a number, as many as there are, and what follows them. -/
def digits (least most : Nat) (cs : List Rune) : Option (Nat × List Rune) :=
  let ds := (cs.take most).takeWhile Rune.isDigit
  if ds.length < least then none
  else some (ds.foldl (fun n c => 10 * n + (c.toNat - 48)) 0, cs.drop ds.length)

/-- The text after this character, when it starts with it. -/
def after (c : Rune) : List Rune → Option (List Rune)
  | x :: rest => if x == c then some rest else none
  | [] => none

/-- A space or a tab. -/
def isBlank (c : Rune) : Bool :=
  c == ' ' || c == '\t'

/-- A distance from universal time, which ends the text. -/
def zone? (cs : List Rune) : Option Zone :=
  match cs with
  | [.char 'Z'] => some ⟨false, 0⟩
  | sign :: rest =>
    if sign != '+' && sign != '-' then none
    else do
      let (hours, rest) ← digits 1 2 rest
      match rest with
      | [] => some ⟨sign == '-', 60 * hours⟩
      | _ =>
        let (minutes, rest) ← digits 2 2 (← after ':' rest)
        if rest.isEmpty then some ⟨sign == '-', 60 * hours + minutes⟩ else none
  | [] => none

/-- A time of day, which ends the text. -/
def time? (cs : List Rune) : Option DayTime := do
  let (hour, cs) ← digits 1 2 cs
  let (minute, cs) ← digits 2 2 (← after ':' cs)
  let (second, cs) ← digits 2 2 (← after ':' cs)
  let (fraction, cs) := match cs with
    | .char '.' :: rest => rest.span Rune.isDigit
    | cs => ([], cs)
  if cs.isEmpty then return ⟨hour, minute, second, fraction, none⟩
  else return ⟨hour, minute, second, fraction, some (← zone? (cs.dropWhile isBlank))⟩

/-- The text between a date and a time of day is left out. -/
def afterDate : List Rune → Option (List Rune)
  | [] => none
  | c :: rest =>
    if c == 'T' || c == 't' then some rest
    else if isBlank c then some (rest.dropWhile isBlank)
    else none

/-- The date and time that a text writes. -/
def ofChars? (cs : List Rune) : Option Moment := do
  let (year, cs) ← digits 4 4 cs
  let (month, cs) ← digits 1 2 (← after '-' cs)
  let (day, cs) ← digits 1 2 (← after '-' cs)
  if cs.isEmpty then return ⟨year, month, day, none⟩
  else return ⟨year, month, day, some (← time? (← afterDate cs))⟩

/-- A plain text that is a date without being said to be one: a date alone has all its digits. -/
def isPlain (cs : List Rune) : Bool :=
  (ofChars? cs).any fun m => m.time.isSome || cs.length == 10

/-- A year with one day more. -/
def isLeap (year : Nat) : Bool :=
  year % 4 == 0 && (year % 100 != 0 || year % 400 == 0)

/-- How many days a month has; none if there is no such month. -/
def daysIn (year month : Nat) : Nat :=
  if month = 2 then (if isLeap year then 29 else 28)
  else if month = 4 || month = 6 || month = 9 || month = 11 then 30
  else if 1 ≤ month && month ≤ 12 then 31
  else 0

/-- The date exists. -/
def dateExists (m : Moment) : Bool :=
  1 ≤ m.year && 1 ≤ m.day && m.day ≤ daysIn m.year m.month

end Moment

/-- A number in at least so many digits. -/
def paddedNumber (width n : Nat) : List Rune :=
  let ds := Nat.toDigits 10 n
  (List.replicate (width - ds.length) '0' ++ ds).map .char

/-- A distance from universal time, in hours and minutes. -/
def Zone.text (z : Zone) : List Rune :=
  (if z.behind && z.minutes ≠ 0 then '-' else '+') ::
    (paddedNumber 2 (z.minutes / 60) ++ Rune.char ':' :: paddedNumber 2 (z.minutes % 60))

namespace DayTime

/-- The time of day exists, and its zone is less than a day away. -/
def isReal (t : DayTime) : Bool :=
  t.hour < 24 && t.minute < 60 && t.second < 60 && t.zone.all fun z => z.minutes < 24 * 60

/-- The first six digits of the fraction, filled up with zeros. -/
def micros (t : DayTime) : List Rune :=
  let ds := t.fraction.take 6
  ds ++ List.replicate (6 - ds.length) (.char '0')

/-- The time of day as a text; a fraction of zero is left out. -/
def text (t : DayTime) : List Rune :=
  paddedNumber 2 t.hour ++ Rune.char ':' :: paddedNumber 2 t.minute ++
    Rune.char ':' :: paddedNumber 2 t.second ++
    (if t.micros.all (· == .char '0') then [] else Rune.char '.' :: t.micros) ++
    (match t.zone with
      | some z => z.text
      | none => [])

end DayTime

namespace Moment

/-- The date exists, and so does its time of day. -/
def isReal (m : Moment) : Bool :=
  m.dateExists && m.time.all DayTime.isReal

/-- The date and time as a text. -/
def text (m : Moment) : Text :=
  Text.ofList (paddedNumber 4 m.year ++ Rune.char '-' :: paddedNumber 2 m.month ++
    Rune.char '-' :: paddedNumber 2 m.day ++
    (match m.time with
      | some t => Rune.char ' ' :: t.text
      | none => []))

example : (ofChars? (Text.toList "2001-12-14t21:59:43.10-05:00")).map text =
    some (.ofString "2001-12-14 21:59:43.100000-05:00") := by
  decide +kernel

example : isPlain (Text.toList "2001-02-03") ∧ ¬ isPlain (Text.toList "2001-2-3") := by
  decide +kernel

end Moment
end Yaml
end LiveCanvas
