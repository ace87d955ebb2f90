import Premerge.Data.Value

/-! A table is printed as sections: its plain entries stand under its header, and the tables inside
it follow as sections of their own. Nothing is printed for a null. A string takes the plainest of
five forms that can hold it. -/

namespace Premerge.Data.Toml

def doubleQuote : Char := '\x22'

def singleQuote : Char := '\x27'

def isControl (c : Char) : Bool :=
  c.toNat < 0x20 || c.toNat == 0x7F

def longestRun (c : Char) : List Char → Nat
  | [] => 0
  | d :: rest =>
    max (if d = c then 1 + (rest.takeWhile (· == c)).length else 0) (longestRun c rest)

def upperHexDigit (n : Nat) : Char :=
  ((Nat.toDigits 16 (n % 16)).headD '0').toUpper

def escaped (c : Char) : List Char :=
  if c = '\t' then ['\\', 't']
  else if c = '\r' then ['\\', 'r']
  else if c = '\\' then ['\\', '\\']
  else if c.toNat = 8 then ['\\', 'b']
  else if c.toNat = 12 then ['\\', 'f']
  else if isControl c then
    ['\\', 'u', '0', '0', upperHexDigit (c.toNat / 16), upperHexDigit c.toNat]
  else [c]

def shortBody (text : List Char) : List Char :=
  text.flatMap fun c =>
    if c = doubleQuote then ['\\', c] else if c = '\n' then ['\\', 'n'] else escaped c

/-- The inside of a string over several lines, behind `run` quotes: a third one in a row gets a
backslash. -/
def longBody : Nat → List Char → List Char
  | _, [] => []
  | run, c :: rest =>
    if c = doubleQuote then
      if run = 2 then '\\' :: c :: longBody 0 rest else c :: longBody (run + 1) rest
    else if c = '\n' then c :: longBody 0 rest
    else escaped c ++ longBody 0 rest

inductive Form where
  | basic
  | literal
  | longBasic
  | longLiteral
  deriving DecidableEq, Repr

def formOf (text : List Char) : Form :=
  let has (c : Char) : Bool := text.contains c
  let controls := text.filter isControl
  if controls.all (· == '\t') && !has '\\' && !has doubleQuote then .basic
  else if controls.isEmpty && !has singleQuote then .literal
  else if controls.all (fun c => c == '\n' || c == '\t') && !has '\\'
      && longestRun doubleQuote text ≤ 2 then .longBasic
  else if controls.all (fun c => c == '\n' || c == '\t') && longestRun singleQuote text ≤ 2 then
    .longLiteral
  else if has '\n' then .longBasic
  else .basic

def inForm (form : Form) (text : List Char) : List Char :=
  let start := if text.contains '\n' then ['\n'] else []
  match form with
  | .basic => doubleQuote :: shortBody text ++ [doubleQuote]
  | .literal => singleQuote :: text ++ [singleQuote]
  | .longBasic =>
    List.replicate 3 doubleQuote ++ start ++ longBody 0 text ++ List.replicate 3 doubleQuote
  | .longLiteral =>
    List.replicate 3 singleQuote ++ start ++ text ++ List.replicate 3 singleQuote

def string (text : String) : String :=
  let chars := text.toList
  String.ofList (inForm (formOf chars) chars)

def key (name : String) : String :=
  let chars := name.toList
  if !chars.isEmpty && chars.all (fun c => c.isAlphanum || c == '_' || c == '-') then name
  else
    let form := match formOf chars with
      | .literal => Form.literal
      | _ => .basic
    String.ofList (inForm form chars)

def dottedKey (path : List String) : String :=
  ".".intercalate (path.map key)

def listText : List String → String
  | [] => "[]"
  | [item] => "[" ++ item ++ "]"
  | items => "[\n" ++ String.join (items.map fun item => "    " ++ item ++ ",\n") ++ "]"

mutual

def valueText : Value → String
  | .null => ""
  | .bool b => if b then "true" else "false"
  | .int n => toString n
  | .decimal text => text
  | .text s => string s
  | .moment text => text
  | .list items => listText (valueTexts items)
  | .table entries => "\x7b " ++ ", ".intercalate (entryTexts entries) ++ " \x7d"

def valueTexts : List Value → List String
  | [] => []
  | item :: rest => valueText item :: valueTexts rest

def entryTexts : List (String × Value) → List String
  | [] => []
  | (name, value) :: rest => (key name ++ " = " ++ valueText value) :: entryTexts rest

end

def isTable : Value → Bool
  | .table _ => true
  | _ => false

def isSection : Value → Bool
  | .table _ => true
  | .list items => !items.isEmpty && items.all isTable
  | _ => false

def isNull : Value → Bool
  | .null => true
  | _ => false

def plainLines (entries : List (String × Value)) : List String :=
  (entries.filter fun (_, value) => !isSection value && !isNull value).map fun (name, value) =>
    key name ++ " = " ++ valueText value

structure Section where
  header : String
  lines : List String
  deriving DecidableEq, Repr

mutual

def sections (path : List String) : List (String × Value) → List Section
  | [] => []
  | (name, value) :: rest => sectionsOf (path ++ [name]) value ++ sections path rest

/-- The sections of an entry. A table that holds nothing but tables has no header. -/
def sectionsOf (path : List String) : Value → List Section
  | .table entries =>
    let lines := plainLines entries
    let own := if lines.isEmpty && !entries.isEmpty then []
      else [⟨"[" ++ dottedKey path ++ "]", lines⟩]
    own ++ sections path entries
  | .list items => if isSection (.list items) then rowSections path items else []
  | _ => []

def rowSections (path : List String) : List Value → List Section
  | [] => []
  | .table entries :: rest =>
    ⟨"[[" ++ dottedKey path ++ "]]", plainLines entries⟩ :: sections path entries
      ++ rowSections path rest
  | _ :: rest => rowSections path rest

end

def unlines (lines : List String) : String :=
  String.join (lines.map (· ++ "\n"))

def withSections (text : String) : List Section → String
  | [] => text
  | s :: rest =>
    let gap := if text.isEmpty then "" else "\n"
    withSections (text ++ gap ++ s.header ++ "\n" ++ unlines s.lines) rest

def numbersFit : Value → Bool
  | .int n => hasWord n
  | .list items => itemsFit items
  | .table entries => entriesFit entries
  | _ => true
where
  itemsFit : List Value → Bool
    | [] => true
    | item :: rest => numbersFit item && itemsFit rest
  entriesFit : List (String × Value) → Bool
    | [] => true
    | (_, value) :: rest => numbersFit value && entriesFit rest

def print (entries : List (String × Value)) : Option String :=
  if numbersFit (.table entries) then
    some (withSections (unlines (plainLines entries)) (sections [] entries))
  else none

end Premerge.Data.Toml
