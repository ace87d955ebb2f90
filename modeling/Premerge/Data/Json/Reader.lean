import Premerge.Data.Value

/-! `read` accepts one JSON text and nothing behind it. Whole numbers stay exact; a number with a
point or an exponent, and a negative zero, is kept as its text. Of two entries for one name the
later counts. -/

namespace Premerge.Data.Json

def skipSpace (input : List Char) : List Char :=
  input.dropWhile fun c => c == ' ' || c == '\t' || c == '\n' || c == '\r'

def hexValue? (c : Char) : Option Nat :=
  if '0' ≤ c ∧ c ≤ '9' then some (c.toNat - 48)
  else if 'a' ≤ c ∧ c ≤ 'f' then some (c.toNat - 87)
  else if 'A' ≤ c ∧ c ≤ 'F' then some (c.toNat - 55)
  else none

def hexNumber? (digits : List Char) : Option Nat :=
  digits.foldlM (fun n c => (hexValue? c).map (n * 16 + ·)) 0

def letterEscape? : Char → Option Char
  | 'n' => some '\n'
  | 't' => some '\t'
  | 'r' => some '\r'
  | 'b' => some (Char.ofNat 8)
  | 'f' => some (Char.ofNat 12)
  | '/' => some '/'
  | '\\' => some '\\'
  | c => if c = '\x22' then some c else none

def stringBody : Nat → List Char → Option (List Char × List Char)
  | 0, _ => none
  | _ + 1, [] => none
  | fuel + 1, '\\' :: 'u' :: a :: b :: c :: d :: rest => do
    let unit ← hexNumber? [a, b, c, d]
    if 0xD800 ≤ unit ∧ unit < 0xDC00 then
      match rest with
      | '\\' :: 'u' :: e :: f :: g :: h :: rest =>
        let low ← hexNumber? [e, f, g, h]
        guard (0xDC00 ≤ low ∧ low < 0xE000)
        let (text, rest) ← stringBody fuel rest
        some (Char.ofNat (0x10000 + (unit - 0xD800) * 1024 + (low - 0xDC00)) :: text, rest)
      | _ => none
    else
      guard (¬ (0xDC00 ≤ unit ∧ unit < 0xE000))
      let (text, rest) ← stringBody fuel rest
      some (Char.ofNat unit :: text, rest)
  | fuel + 1, '\\' :: c :: rest => do
    let c ← letterEscape? c
    let (text, rest) ← stringBody fuel rest
    some (c :: text, rest)
  | fuel + 1, c :: rest =>
    if c = '\x22' then some ([], rest)
    else if c.toNat < 32 then none
    else do
      let (text, rest) ← stringBody fuel rest
      some (c :: text, rest)

def stringStep (input : List Char) : Option (String × List Char) := do
  let (text, rest) ← stringBody (input.length + 1) input
  some (String.ofList text, rest)

def decimalNumber (digits : List Char) : Nat :=
  digits.foldl (fun n c => n * 10 + (c.toNat - 48)) 0

def wholeDigits (digits : List Char) : Bool :=
  !digits.isEmpty && digits.all Char.isDigit && (digits.length == 1 || digits.head? != some '0')

def fractionAndExponent (tail : List Char) : Bool :=
  let exponent (e : List Char) : Bool :=
    match e with
    | [] => true
    | c :: digits =>
      let digits := match digits with
        | '+' :: more => more
        | '-' :: more => more
        | more => more
      (c == 'e' || c == 'E') && !digits.isEmpty && digits.all Char.isDigit
  match tail with
  | '.' :: more => !(more.takeWhile Char.isDigit).isEmpty && exponent (more.dropWhile Char.isDigit)
  | more => exponent more

def number? (chars : List Char) : Option Value :=
  let (minus, unsigned) := match chars with
    | '-' :: rest => (true, rest)
    | rest => (false, rest)
  let digits := unsigned.takeWhile Char.isDigit
  let tail := unsigned.dropWhile Char.isDigit
  if !wholeDigits digits then none
  else if tail.isEmpty && !(minus && digits == ['0']) then
    let n : Int := decimalNumber digits
    some (.int (if minus then -n else n))
  else if fractionAndExponent tail then some (.decimal (String.ofList chars))
  else none

def isWordChar (c : Char) : Bool :=
  c.isAlphanum || c == '-' || c == '+' || c == '.'

def word? (chars : List Char) : Option Value :=
  match String.ofList chars with
  | "null" => some .null
  | "true" => some (.bool true)
  | "false" => some (.bool false)
  | _ => number? chars

mutual

def valueStep : Nat → List Char → Option (Value × List Char)
  | 0, _ => none
  | fuel + 1, input =>
    match skipSpace input with
    | '[' :: rest =>
      match skipSpace rest with
      | ']' :: rest => some (.list [], rest)
      | rest => itemsStep fuel rest []
    | '\x7b' :: rest =>
      match skipSpace rest with
      | '\x7d' :: rest => some (.table [], rest)
      | rest => entriesStep fuel rest []
    | '\x22' :: rest => (stringStep rest).map fun (s, rest) => (.text s, rest)
    | rest => do
      let value ← word? (rest.takeWhile isWordChar)
      some (value, rest.dropWhile isWordChar)

def itemsStep : Nat → List Char → List Value → Option (Value × List Char)
  | 0, _, _ => none
  | fuel + 1, input, done => do
    let (item, rest) ← valueStep fuel input
    match skipSpace rest with
    | ',' :: rest => itemsStep fuel rest (item :: done)
    | ']' :: rest => some (.list (item :: done).reverse, rest)
    | _ => none

def entriesStep : Nat → List Char → List (String × Value) → Option (Value × List Char)
  | 0, _, _ => none
  | fuel + 1, input, done =>
    match skipSpace input with
    | '\x22' :: rest => do
      let (name, rest) ← stringStep rest
      match skipSpace rest with
      | ':' :: rest => do
        let (value, rest) ← valueStep fuel rest
        let done := put done name value
        match skipSpace rest with
        | ',' :: rest => entriesStep fuel rest done
        | '\x7d' :: rest => some (.table done, rest)
        | _ => none
      | _ => none
    | _ => none

end

def read (text : String) : Option Value := do
  let input := text.toList
  let (value, rest) ← valueStep (input.length + 1) input
  guard (skipSpace rest).isEmpty
  some value

end Premerge.Data.Json
