import Premerge.Text.Blank

/-! A point in time counts the seconds since 1970 in UTC, in the proleptic Gregorian calendar. It is
read from a date, a time of day and an offset, and written in UTC. -/

namespace Premerge.Data

structure Timestamp where
  seconds : Int
  /-- Nanoseconds behind them; from 10⁹ on they lie in a leap second. -/
  nanos : Nat
  deriving DecidableEq, Repr, Inhabited

namespace Timestamp

structure Day where
  year : Int
  month : Nat
  day : Nat
  deriving DecidableEq, Repr

def isLeapYear (year : Int) : Bool :=
  year % 4 == 0 && (year % 100 != 0 || year % 400 == 0)

def monthLength (year : Int) (month : Nat) : Nat :=
  if month = 2 then (if isLeapYear year then 29 else 28)
  else if month = 4 ∨ month = 6 ∨ month = 9 ∨ month = 11 then 30
  else 31

def Day.valid (d : Day) : Bool :=
  1 ≤ d.month && d.month ≤ 12 && 1 ≤ d.day && d.day ≤ monthLength d.year d.month

/-- The days from the first of January 1970 to the given one; years count from March. -/
def daysOf (d : Day) : Int :=
  let year := if d.month ≤ 2 then d.year - 1 else d.year
  let era := year / 400
  let yearOfEra := year % 400
  let month := (d.month + 9) % 12
  let dayOfYear := (153 * month + 2) / 5 + d.day - 1
  era * 146097 + (yearOfEra * 365 + yearOfEra / 4 - yearOfEra / 100 + dayOfYear) - 719468

def civilOf (days : Int) : Day :=
  let shifted := days + 719468
  let era := shifted / 146097
  let dayOfEra := (shifted % 146097).toNat
  let yearOfEra := (dayOfEra - dayOfEra / 1460 + dayOfEra / 36524 - dayOfEra / 146096) / 365
  let dayOfYear := dayOfEra - (365 * yearOfEra + yearOfEra / 4 - yearOfEra / 100)
  let month := (5 * dayOfYear + 2) / 153
  let day := dayOfYear - (153 * month + 2) / 5 + 1
  let month := if month < 10 then month + 3 else month - 9
  ⟨yearOfEra + era * 400 + (if month ≤ 2 then 1 else 0), month, day⟩

example : civilOf (daysOf ⟨2024, 2, 29⟩) = ⟨2024, 2, 29⟩ ∧ civilOf (daysOf ⟨2024, 12, 31⟩) = ⟨2024, 12, 31⟩
    ∧ daysOf ⟨1970, 1, 1⟩ = 0 := by decide

def padded (width n : Nat) : List Char :=
  let digits := Nat.toDigits 10 n
  List.replicate (width - digits.length) '0' ++ digits

def yearText (year : Int) : List Char :=
  if 0 ≤ year ∧ year ≤ 9999 then padded 4 year.toNat
  else (if year < 0 then '-' else '+') :: padded 4 year.natAbs

def fractionText (nanos : Nat) : List Char :=
  if nanos = 0 then []
  else if nanos % 1000000 = 0 then '.' :: padded 3 (nanos / 1000000)
  else if nanos % 1000 = 0 then '.' :: padded 6 (nanos / 1000)
  else '.' :: padded 9 nanos

def render (mark : String) (t : Timestamp) : String :=
  let day := civilOf (t.seconds / 86400)
  let rest := (t.seconds % 86400).toNat
  let leap := if t.nanos < 1000000000 then 0 else 1
  String.ofList (yearText day.year ++ ['-'] ++ padded 2 day.month ++ ['-'] ++ padded 2 day.day
    ++ ['T'] ++ padded 2 (rest / 3600) ++ [':'] ++ padded 2 (rest / 60 % 60)
    ++ [':'] ++ padded 2 (rest % 60 + leap) ++ fractionText (t.nanos % 1000000000)) ++ mark

def text (t : Timestamp) : String :=
  t.render "Z"

def textWithOffset (t : Timestamp) : String :=
  t.render "+00:00"

def skipBlank (input : List Char) : List Char :=
  input.dropWhile Text.isBlank

def numberOf (digits : List Char) : Nat :=
  digits.foldl (fun n c => n * 10 + (c.toNat - 48)) 0

def digits (width : Nat) (input : List Char) : Option (Nat × List Char) :=
  let found := (input.take width).takeWhile Char.isDigit
  if found.isEmpty then none else some (numberOf found, input.drop found.length)

def expect (c : Char) (input : List Char) : Option (List Char) :=
  match skipBlank input with
  | d :: rest => if d = c then some rest else none
  | [] => none

def yearStep (input : List Char) : Option (Int × List Char) :=
  match skipBlank input with
  | '-' :: rest => (digits rest.length rest).map fun (n, rest) => (-n, rest)
  | '+' :: rest => (digits rest.length rest).map fun (n, rest) => ((n : Int), rest)
  | rest => (digits 4 rest).map fun (n, rest) => ((n : Int), rest)

def fractionStep (input : List Char) : Option (Nat × List Char) :=
  match input with
  | '.' :: rest =>
    let found := rest.takeWhile Char.isDigit
    if found.isEmpty then none
    else
      let kept := found.take 9
      some (numberOf kept * Nat.pow 10 (9 - kept.length), rest.drop found.length)
  | rest => some (0, rest)

def pair (most : Char) (input : List Char) : Option (Nat × List Char) :=
  match input with
  | a :: b :: rest =>
    if '0' ≤ a ∧ a ≤ most ∧ b.isDigit then some ((a.toNat - 48) * 10 + (b.toNat - 48), rest)
    else none
  | _ => none

def offsetStep (input : List Char) : Option (Int × List Char) :=
  let signed (sign : Int) (rest : List Char) : Option (Int × List Char) := do
    let (hours, rest) ← pair '9' rest
    let (minutes, rest) ← pair '5' (rest.dropWhile fun c => c == ':' || Text.isBlank c)
    some (sign * (hours * 3600 + minutes * 60 : Nat), rest)
  match input with
  | 'Z' :: rest => some (0, rest)
  | 'z' :: rest => some (0, rest)
  | '+' :: rest => signed 1 rest
  | '-' :: rest => signed (-1) rest
  | '\u2212' :: rest => signed (-1) rest
  | u :: t :: c :: rest =>
    if [u.toLower, t.toLower, c.toLower] = ['u', 't', 'c'] then some (0, rest) else none
  | _ => none

/-- Reads a date, a `T` or a space, a time of day and an offset; blanks may stand between parts.
The sixtieth second is a leap second. -/
def read (text : String) : Option Timestamp := do
  let (year, rest) ← yearStep text.toList
  let rest ← expect '-' rest
  let (month, rest) ← digits 2 (skipBlank rest)
  let rest ← expect '-' rest
  let (day, rest) ← digits 2 (skipBlank rest)
  let rest ← match rest with
    | c :: rest => if c = 'T' ∨ c = 't' ∨ c = ' ' then some rest else none
    | [] => none
  let (hour, rest) ← digits 2 (skipBlank rest)
  let rest ← expect ':' rest
  let (minute, rest) ← digits 2 (skipBlank rest)
  let rest ← expect ':' rest
  let (second, rest) ← digits 2 (skipBlank rest)
  let (nanos, rest) ← fractionStep rest
  let (offset, rest) ← offsetStep (skipBlank rest)
  guard (skipBlank rest).isEmpty
  let date : Day := ⟨year, month, day⟩
  guard (date.valid && -262143 ≤ year && year ≤ 262142)
  guard (hour < 24 && minute < 60 && second ≤ 60)
  guard (-86400 < offset && offset < 86400)
  -- The sixtieth second is told by the nanoseconds of the fifty-ninth.
  let leap := if second = 60 then 1 else 0
  some ⟨daysOf date * 86400 + (hour * 3600 + minute * 60 + (second - leap) : Nat) - offset,
    nanos + leap * 1000000000⟩

end Timestamp

end Premerge.Data
