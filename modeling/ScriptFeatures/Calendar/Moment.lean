import ScriptFeatures.Text.Lines

/-! Points of time in the Gregorian calendar and universal time, to the nanosecond, and their text
(RFC 3339).

A text is read with any offset from universal time and brought to universal time. White space is let
through before numbers, before separators of the date and time and around the offset; the letters
may be small, the `T` may be a blank, and a year may have a sign and then any number of digits. -/

namespace ScriptFeatures.Calendar

/-- A point of time. A second of 60 is a leap second. -/
structure Moment where
  year : Int
  month : Nat
  day : Nat
  hour : Nat
  minute : Nat
  second : Nat
  nanosecond : Nat
  deriving DecidableEq, Repr, Inhabited

/-- Whether a year has 366 days. -/
def isLeap (year : Int) : Bool :=
  year % 4 == 0 && (year % 100 != 0 || year % 400 == 0)

/-- The number of days of a month. -/
def daysIn (year : Int) (month : Nat) : Nat :=
  if month == 2 then if isLeap year then 29 else 28
  else if month == 4 || month == 6 || month == 9 || month == 11 then 30
  else 31

namespace Moment

/-- The years of the calendar. -/
def inRange (m : Moment) : Bool :=
  -262143 ≤ m.year && m.year ≤ 262142

/-- Whether the fields name a day and a time. -/
def isValid (m : Moment) : Bool :=
  m.inRange && 1 ≤ m.month && m.month ≤ 12 && 1 ≤ m.day && m.day ≤ daysIn m.year m.month &&
    m.hour ≤ 23 && m.minute ≤ 59 && m.second ≤ 60 && m.nanosecond < 1000000000

def tomorrow (m : Moment) : Moment :=
  if m.day < daysIn m.year m.month then { m with day := m.day + 1 }
  else if m.month < 12 then { m with month := m.month + 1, day := 1 }
  else { m with year := m.year + 1, month := 1, day := 1 }

def yesterday (m : Moment) : Moment :=
  if 1 < m.day then { m with day := m.day - 1 }
  else if 1 < m.month then
    { m with month := m.month - 1, day := daysIn m.year (m.month - 1) }
  else { m with year := m.year - 1, month := 12, day := 31 }

/-- A moment that is earlier by some minutes, less than a day. -/
def earlier (m : Moment) (minutes : Int) : Moment :=
  let total : Int := (m.hour * 60 + m.minute : Nat) - minutes
  let time (t : Int) (m : Moment) : Moment :=
    { m with hour := t.toNat / 60, minute := t.toNat % 60 }
  if total < 0 then time (total + 1440) m.yesterday
  else if total < 1440 then time total m
  else time (total - 1440) m.tomorrow

end Moment

/-! ## Text -/

/-- A natural number with at least `width` digits. -/
def padded (width n : Nat) : List Char :=
  let ds := Nat.toDigits 10 n
  List.replicate (width - ds.length) '0' ++ ds

/-- A year with at least four digits; one outside 0 to 9999 has a sign. -/
def yearText (year : Int) : List Char :=
  if 0 ≤ year ∧ year ≤ 9999 then padded 4 year.toNat
  else (if year < 0 then '-' else '+') :: padded 4 year.natAbs

/-- A fraction of a second with as few digits as lose nothing: none, 3, 6 or 9. -/
def fractionText (nanosecond : Nat) : List Char :=
  if nanosecond = 0 then []
  else if nanosecond % 1000000 = 0 then '.' :: padded 3 (nanosecond / 1000000)
  else if nanosecond % 1000 = 0 then '.' :: padded 6 (nanosecond / 1000)
  else '.' :: padded 9 nanosecond

/-- The text of a moment, with the given text for universal time at its end. -/
def Moment.text (zone : String) (m : Moment) : String :=
  String.ofList (yearText m.year ++ '-' :: padded 2 m.month ++ '-' :: padded 2 m.day ++
    'T' :: padded 2 m.hour ++ ':' :: padded 2 m.minute ++ ':' :: padded 2 m.second ++
    fractionText m.nanosecond ++ zone.toList)

/-! ## Reading -/

def dropBlanks (cs : List Char) : List Char :=
  cs.dropWhile Text.isBlank

def isDigit (c : Char) : Bool :=
  '0' ≤ c && c ≤ '9'

def ofDigits (ds : List Char) : Nat :=
  ds.foldl (fun n d => n * 10 + (d.toNat - 48)) 0

/-- Reads one to `width` digits. -/
def takeDigits? (width : Nat) (cs : List Char) : Option (Nat × List Char) :=
  match (cs.take width).takeWhile isDigit with
  | [] => none
  | ds => some (ofDigits ds, cs.drop ds.length)

/-- Reads one or two digits after white space. -/
def takeField? (cs : List Char) : Option (Nat × List Char) :=
  takeDigits? 2 (dropBlanks cs)

/-- Reads a year: up to four digits, or a sign and any number of digits. -/
def takeYear? (cs : List Char) : Option (Int × List Char) :=
  match dropBlanks cs with
  | '-' :: rest => (takeDigits? rest.length rest).map fun (n, rest) => (-(n : Int), rest)
  | '+' :: rest => (takeDigits? rest.length rest).map fun (n, rest) => (n, rest)
  | rest => (takeDigits? 4 rest).map fun (n, rest) => (n, rest)

/-- Reads a separator after white space. -/
def takeMark? (mark : Char) (cs : List Char) : Option (List Char) :=
  match dropBlanks cs with
  | [] => none
  | c :: rest => if c = mark then some rest else none

/-- Reads a fraction of a second, if there is one; digits after the ninth do not count. -/
def takeFraction? : List Char → Option (Nat × List Char)
  | '.' :: rest =>
    match rest.takeWhile isDigit with
    | [] => none
    | ds =>
      let used := ds.take 9
      some (ofDigits used * Nat.pow 10 (9 - used.length), rest.drop ds.length)
  | rest => some (0, rest)

/-- Reads the sign of an offset. -/
def takeSign? : List Char → Option (Bool × List Char)
  | '+' :: rest => some (false, rest)
  | '-' :: rest => some (true, rest)
  | '\u2212' :: rest => some (true, rest)
  | _ => none

/-- Reads exactly two digits. -/
def takePair? : List Char → Option (Nat × List Char)
  | a :: b :: rest => if isDigit a && isDigit b then some (ofDigits [a, b], rest) else none
  | _ => none

/-- Reads an offset from universal time, in minutes. -/
def takeOffset? (cs : List Char) : Option (Int × List Char) :=
  match cs with
  | [] => none
  | c :: rest =>
    if c = 'Z' ∨ c = 'z' then some (0, rest)
    else if (cs.take 3).map Char.toUpper = ['U', 'T', 'C'] then some (0, cs.drop 3)
    else do
      let (negative, rest) ← takeSign? cs
      let (hours, rest) ← takePair? rest
      let rest := rest.dropWhile fun c => c = ':' || Text.isBlank c
      let (minutes, rest) ← takePair? rest
      if minutes > 59 || hours > 23 then none
      let offset : Int := (hours * 60 + minutes : Nat)
      return (if negative then -offset else offset, rest)

/-- Reads a text as a moment in universal time. -/
def Moment.parse? (text : String) : Option Moment := do
  let (year, cs) ← takeYear? text.toList
  let cs ← takeMark? '-' cs
  let (month, cs) ← takeField? cs
  let cs ← takeMark? '-' cs
  let (day, cs) ← takeField? cs
  let cs ← match cs with
    | [] => none
    | c :: rest => if c = 'T' ∨ c = 't' ∨ c = ' ' then some rest else none
  let (hour, cs) ← takeField? cs
  let cs ← takeMark? ':' cs
  let (minute, cs) ← takeField? cs
  let cs ← takeMark? ':' cs
  let (second, cs) ← takeField? cs
  let (nanosecond, cs) ← takeFraction? cs
  let (offset, cs) ← takeOffset? (dropBlanks cs)
  let rest := dropBlanks cs
  if !rest.isEmpty then none
  let m : Moment := ⟨year, month, day, hour, minute, second, nanosecond⟩
  if !m.isValid then none
  let m := m.earlier offset
  if m.inRange then some m else none

end ScriptFeatures.Calendar
