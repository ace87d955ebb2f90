import Premerge.Data.Value

/-! Numbers, truth values and points in time are words: `scalar?` reads one. Whole numbers have 64
bits. The size of other numbers only matters where it is infinite, which is refused. -/

namespace Premerge.Data.Toml

def digitValue? (c : Char) : Option Nat :=
  if '0' ≤ c ∧ c ≤ '9' then some (c.toNat - 48)
  else if 'a' ≤ c ∧ c ≤ 'f' then some (c.toNat - 87)
  else if 'A' ≤ c ∧ c ≤ 'F' then some (c.toNat - 55)
  else none

def isDigitOf (base : Nat) (c : Char) : Bool :=
  match digitValue? c with
  | some d => d < base
  | none => false

def digits? (base : Nat) : List Char → Option (List Char)
  | [] => none
  | [c] => if isDigitOf base c then some [c] else none
  | c :: '_' :: rest => if isDigitOf base c then (digits? base rest).map (c :: ·) else none
  | c :: rest => if isDigitOf base c then (digits? base rest).map (c :: ·) else none

def numberOf (base : Nat) (digits : List Char) : Nat :=
  digits.foldl (fun n c => n * base + (digitValue? c).getD 0) 0

def plainDigits? (word : List Char) : Option (List Char) :=
  match digits? 10 word with
  | some ['0'] => some ['0']
  | some ('0' :: _) => none
  | found => found

def sign (word : List Char) : Bool × List Char :=
  match word with
  | '-' :: rest => (true, rest)
  | '+' :: rest => (false, rest)
  | rest => (false, rest)

def bounded? (n : Int) : Option Value :=
  if hasWord n then some (.int n) else none

def integer? (word : List Char) : Option Value :=
  match word with
  | '0' :: 'x' :: rest => (digits? 16 rest).bind fun ds => bounded? (numberOf 16 ds)
  | '0' :: 'o' :: rest => (digits? 8 rest).bind fun ds => bounded? (numberOf 8 ds)
  | '0' :: 'b' :: rest => (digits? 2 rest).bind fun ds => bounded? (numberOf 2 ds)
  | _ =>
    let (minus, rest) := sign word
    (plainDigits? rest).bind fun ds =>
      let n : Int := numberOf 10 ds
      bounded? (if minus then -n else n)

/-- The least number that rounds to infinity in 64 bits. -/
def overflow : Nat := Nat.pow 2 1024 - Nat.pow 2 970

def isInfinite (mantissa : Nat) (exponent : Int) : Bool :=
  let order : Int := (Nat.toDigits 10 mantissa).length + exponent
  if mantissa = 0 ∨ order < 300 then false
  else if order > 320 then true
  else if exponent ≥ 0 then mantissa * Nat.pow 10 exponent.toNat ≥ overflow
  else mantissa ≥ overflow * Nat.pow 10 (-exponent).toNat

def fraction? (word : List Char) : Option Value := do
  let (minus, rest) := sign word
  let isMark (c : Char) : Bool := c == 'e' || c == 'E'
  let before := rest.takeWhile fun c => c != '.' && !isMark c
  let rest := rest.dropWhile fun c => c != '.' && !isMark c
  let whole ← plainDigits? before
  let (hasPoint, fractionDigits, rest) ← match rest with
    | '.' :: rest => do
      let found ← digits? 10 (rest.takeWhile (!isMark ·))
      some (true, found, rest.dropWhile (!isMark ·))
    | rest => some (false, [], rest)
  let exponent : Int ← match rest with
    | [] => if hasPoint then some 0 else none
    | _ :: rest =>
      let (negative, rest) := sign rest
      (digits? 10 rest).map fun ds =>
        let n : Int := numberOf 10 ds
        if negative then -n else n
  guard (minus || !isInfinite (numberOf 10 (whole ++ fractionDigits))
    (exponent - fractionDigits.length))
  some (.decimal (String.ofList word))

def special? (word : List Char) : Option Value :=
  let rest := (sign word).2
  if rest = ['i', 'n', 'f'] ∨ rest = ['n', 'a', 'n'] then some (.decimal (String.ofList word))
  else none

def fixed? (width : Nat) (input : List Char) : Option (Nat × List Char) :=
  let found := input.take width
  if found.length = width ∧ found.all Char.isDigit then
    some (numberOf 10 found, input.drop width)
  else none

def monthLength (year month : Nat) : Nat :=
  if month = 2 then
    if year % 4 = 0 ∧ (year % 100 ≠ 0 ∨ year % 400 = 0) then 29 else 28
  else if month = 4 ∨ month = 6 ∨ month = 9 ∨ month = 11 then 30
  else 31

def date? (input : List Char) : Option (List Char) := do
  let (year, rest) ← fixed? 4 input
  let rest ← if rest.head? = some '-' then some rest.tail else none
  let (month, rest) ← fixed? 2 rest
  let rest ← if rest.head? = some '-' then some rest.tail else none
  let (day, rest) ← fixed? 2 rest
  guard (1 ≤ month && month ≤ 12 && 1 ≤ day && day ≤ monthLength year month)
  some rest

/-- A time of day in its normal form, and the characters behind it. The sixtieth second is
allowed, and digits of a fraction behind the ninth are dropped. -/
def time? (input : List Char) : Option (List Char × List Char) := do
  let (hour, rest) ← fixed? 2 input
  let rest ← if rest.head? = some ':' then some rest.tail else none
  let (minute, rest) ← fixed? 2 rest
  let rest ← if rest.head? = some ':' then some rest.tail else none
  let (second, rest) ← fixed? 2 rest
  guard (hour < 24 && minute < 60 && second ≤ 60)
  let clock := input.take 8
  match rest with
  | '.' :: rest =>
    let found := rest.takeWhile Char.isDigit
    guard (!found.isEmpty)
    let kept := ((found.take 9).reverse.dropWhile (· == '0')).reverse
    some (clock ++ (if kept.isEmpty then [] else '.' :: kept), rest.drop found.length)
  | rest => some (clock, rest)

def offset? (input : List Char) : Option (List Char) :=
  match input with
  | ['Z'] | ['z'] => some ['Z']
  | mark :: rest => do
    guard (mark == '+' || mark == '-')
    let (hour, more) ← fixed? 2 rest
    let more ← if more.head? = some ':' then some more.tail else none
    let (minute, more) ← fixed? 2 more
    guard (hour < 24 && minute < 60 && more.isEmpty)
    some (mark :: rest)
  | [] => none

def moment? (word : List Char) : Option Value :=
  match date? word with
  | some [] => some (.moment (String.ofList word))
  | some (mark :: rest) => do
    guard (mark == 'T' || mark == 't' || mark == ' ')
    let (clock, rest) ← time? rest
    let offset ← if rest.isEmpty then some [] else offset? rest
    some (.moment (String.ofList (word.take 10 ++ ['T'] ++ clock ++ offset)))
  | none => do
    let (clock, rest) ← time? word
    guard rest.isEmpty
    some (.moment (String.ofList clock))

def scalar? (word : List Char) : Option Value :=
  if word = ['t', 'r', 'u', 'e'] then some (.bool true)
  else if word = ['f', 'a', 'l', 's', 'e'] then some (.bool false)
  else (moment? word).orElse fun _ => (integer? word).orElse fun _ =>
    (fraction? word).orElse fun _ => special? word

def isWordChar (c : Char) : Bool :=
  c.isAlphanum || c == '+' || c == '-' || c == '_' || c == '.' || c == ':'

def scalarStep (input : List Char) : Option (Value × List Char) := do
  let word := input.takeWhile isWordChar
  let rest := input.dropWhile isWordChar
  let (word, rest) := match date? word, rest with
    | some [], ' ' :: more =>
      match more with
      | a :: b :: ':' :: _ =>
        if a.isDigit ∧ b.isDigit then
          (word ++ ' ' :: more.takeWhile isWordChar, more.dropWhile isWordChar)
        else (word, rest)
      | _ => (word, rest)
    | _, _ => (word, rest)
  let value ← scalar? word
  some (value, rest)

end Premerge.Data.Toml
