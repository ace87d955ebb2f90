import Premerge.Data.Toml.Node
import Premerge.Data.Toml.Scalar

/-! `read` gives the table of a TOML 1.0 text. Lists and inline tables nest less than eighty levels
deep, and a key has less than eighty parts. -/

namespace Premerge.Data.Toml

/-- How deep values nest, and one more than the most parts of a key. -/
def depthLimit : Nat := 79

def quote : Char := '\x22'

def apostrophe : Char := '\x27'

def skipSpace (input : List Char) : List Char :=
  input.dropWhile fun c => c == ' ' || c == '\t'

def isPlainChar (c : Char) : Bool :=
  c == '\t' || (0x20 ≤ c.toNat && c.toNat != 0x7F)

def skipComment (input : List Char) : List Char :=
  match input with
  | '#' :: rest => rest.dropWhile isPlainChar
  | rest => rest

def lineEnd : List Char → Option (List Char)
  | [] => some []
  | '\n' :: rest => some rest
  | '\r' :: '\n' :: rest => some rest
  | _ => none

def lineRest (input : List Char) : Option (List Char) :=
  lineEnd (skipComment (skipSpace input))

def skipLines : Nat → List Char → Option (List Char)
  | 0, input => some input
  | fuel + 1, input =>
    match skipSpace input with
    | '\n' :: rest => skipLines fuel rest
    | '\r' :: '\n' :: rest => skipLines fuel rest
    | '#' :: rest =>
      match rest.dropWhile isPlainChar with
      | '\n' :: rest => skipLines fuel rest
      | '\r' :: '\n' :: rest => skipLines fuel rest
      | _ => none
    | rest => some rest

def numbered? (digits : List Char) : Option Char :=
  if digits.all (isDigitOf 16) then
    let code := numberOf 16 digits
    if code < 0xD800 ∨ (0xE000 ≤ code ∧ code < 0x110000) then some (Char.ofNat code) else none
  else none

def letterEscape? (c : Char) : Option Char :=
  match c with
  | 'b' => some (Char.ofNat 8)
  | 't' => some '\t'
  | 'n' => some '\n'
  | 'f' => some (Char.ofNat 12)
  | 'r' => some '\r'
  | '\\' => some '\\'
  | c => if c = quote then some c else none

def escapeStep (input : List Char) : Option (Char × List Char) :=
  match input with
  | 'u' :: rest =>
    if (rest.take 4).length = 4 then (numbered? (rest.take 4)).map (·, rest.drop 4) else none
  | 'U' :: rest =>
    if (rest.take 8).length = 8 then (numbered? (rest.take 8)).map (·, rest.drop 8) else none
  | c :: rest => (letterEscape? c).map (·, rest)
  | [] => none

def basicStep : Nat → List Char → Option (List Char × List Char)
  | 0, _ => none
  | _ + 1, [] => none
  | fuel + 1, c :: rest =>
    if c = quote then some ([], rest)
    else if c = '\\' then do
      let (c, rest) ← escapeStep rest
      let (text, rest) ← basicStep fuel rest
      some (c :: text, rest)
    else if isPlainChar c then do
      let (text, rest) ← basicStep fuel rest
      some (c :: text, rest)
    else none

def literalStep : List Char → Option (List Char × List Char)
  | [] => none
  | c :: rest =>
    if c = apostrophe then some ([], rest)
    else if isPlainChar c then (literalStep rest).map fun (text, rest) => (c :: text, rest)
    else none

/-- The closing three quotes with up to two quotes of the text before them, if they stand here. -/
def closing? (mark : Char) (input : List Char) : Option (List Char × List Char) :=
  let run := (input.take 5).takeWhile (· == mark)
  if 3 ≤ run.length then some (run.drop 3, input.drop run.length) else none

def joinedLine? (input : List Char) : Option (List Char) :=
  match lineEnd (skipSpace input), skipSpace input with
  | some _, _ :: _ => skipBlanks input.length input
  | _, _ => none
where
  skipBlanks : Nat → List Char → Option (List Char)
    | 0, input => some input
    | fuel + 1, input =>
      match skipSpace input with
      | '\n' :: rest => skipBlanks fuel rest
      | '\r' :: '\n' :: rest => skipBlanks fuel rest
      | rest => some rest

def longBasicStep : Nat → List Char → Option (List Char × List Char)
  | 0, _ => none
  | fuel + 1, input =>
    match closing? quote input with
    | some found => some found
    | none =>
      match input with
      | [] => none
      | '\r' :: '\n' :: rest =>
        (longBasicStep fuel rest).map fun (text, rest) => ('\n' :: text, rest)
      | '\\' :: rest =>
        match joinedLine? rest with
        | some rest => longBasicStep fuel rest
        | none => do
          let (c, rest) ← escapeStep rest
          let (text, rest) ← longBasicStep fuel rest
          some (c :: text, rest)
      | c :: rest =>
        if c = '\n' ∨ isPlainChar c then
          (longBasicStep fuel rest).map fun (text, rest) => (c :: text, rest)
        else none

def longLiteralStep : Nat → List Char → Option (List Char × List Char)
  | 0, _ => none
  | fuel + 1, input =>
    match closing? apostrophe input with
    | some found => some found
    | none =>
      match input with
      | [] => none
      | '\r' :: '\n' :: rest =>
        (longLiteralStep fuel rest).map fun (text, rest) => ('\n' :: text, rest)
      | c :: rest =>
        if c = '\n' ∨ isPlainChar c then
          (longLiteralStep fuel rest).map fun (text, rest) => (c :: text, rest)
        else none

def skipFirstLineEnd : List Char → List Char
  | '\n' :: rest => rest
  | '\r' :: '\n' :: rest => rest
  | rest => rest

def stringStep (input : List Char) : Option (List Char × List Char) :=
  match input with
  | a :: b :: c :: rest =>
    if a = quote then
      if b = quote ∧ c = quote then longBasicStep (rest.length + 1) (skipFirstLineEnd rest)
      else basicStep (rest.length + 3) (b :: c :: rest)
    else if a = apostrophe then
      if b = apostrophe ∧ c = apostrophe then
        longLiteralStep (rest.length + 1) (skipFirstLineEnd rest)
      else literalStep (b :: c :: rest)
    else none
  | [a, b] => if (a = quote ∨ a = apostrophe) ∧ a = b then some ([], []) else none
  | _ => none

def isBareChar (c : Char) : Bool :=
  c.isAlphanum || c == '_' || c == '-'

def keyPart (input : List Char) : Option (String × List Char) :=
  match input with
  | [] => none
  | c :: rest =>
    if c = quote then
      (basicStep (rest.length + 1) rest).map fun (text, rest) => (String.ofList text, rest)
    else if c = apostrophe then
      (literalStep rest).map fun (text, rest) => (String.ofList text, rest)
    else
      let bare := input.takeWhile isBareChar
      if bare.isEmpty then none else some (String.ofList bare, input.dropWhile isBareChar)

def keyParts : Nat → List Char → Option (List String × List Char)
  | 0, _ => none
  | fuel + 1, input => do
    let (part, rest) ← keyPart (skipSpace input)
    match skipSpace rest with
    | '.' :: rest => (keyParts fuel rest).map fun (parts, rest) => (part :: parts, rest)
    | rest => some ([part], rest)

def keyStep (input : List Char) : Option (List String × String × List Char) := do
  let (parts, rest) ← keyParts (input.length + 1) input
  guard (parts.length ≤ depthLimit)
  let name ← parts.getLast?
  some (parts.dropLast, name, rest)

mutual

def valueStep : Nat → Nat → List Char → Option (Value × List Char)
  | 0, _, _ => none
  | fuel + 1, room, input =>
    match input with
    | '[' :: rest =>
      match room with
      | 0 => none
      | room + 1 => itemsStep fuel room rest []
    | '\x7b' :: rest =>
      match room with
      | 0 => none
      | room + 1 =>
        match skipSpace rest with
        | '\x7d' :: rest => some (.table [], rest)
        | rest => entriesStep fuel room rest []
    | c :: _ =>
      if c = quote ∨ c = apostrophe then
        (stringStep input).map fun (text, rest) => (.text (String.ofList text), rest)
      else scalarStep input
    | [] => none

def itemsStep : Nat → Nat → List Char → List Value → Option (Value × List Char)
  | 0, _, _, _ => none
  | fuel + 1, room, input, done => do
    match ← skipLines (input.length + 1) input with
    | ']' :: rest => some (.list done.reverse, rest)
    | rest => do
      let (item, rest) ← valueStep fuel room rest
      match ← skipLines (rest.length + 1) rest with
      | ',' :: rest => itemsStep fuel room rest (item :: done)
      | ']' :: rest => some (.list (item :: done).reverse, rest)
      | _ => none

def entriesStep : Nat → Nat → List Char → Entries → Option (Value × List Char)
  | 0, _, _, _ => none
  | fuel + 1, room, input, done => do
    let (path, name, rest) ← keyStep input
    match rest with
    | '=' :: rest => do
      let (value, rest) ← valueStep fuel room (skipSpace rest)
      let done ← addValue path name value done
      match skipSpace rest with
      | ',' :: rest => entriesStep fuel room rest done
      | '\x7d' :: rest => some (.table (entryValues done), rest)
      | _ => none
    | _ => none

end

structure Document where
  entries : Entries
  header : List String

def lineStep (document : Document) (input : List Char) : Option (Document × List Char) :=
  match input with
  | '[' :: '[' :: rest => do
    let (path, name, rest) ← keyStep rest
    match rest with
    | ']' :: ']' :: rest =>
      let entries ← addRow path name document.entries
      let rest ← lineRest rest
      some (⟨entries, path ++ [name]⟩, rest)
    | _ => none
  | '[' :: rest => do
    let (path, name, rest) ← keyStep rest
    match rest with
    | ']' :: rest =>
      let entries ← addTable path name document.entries
      let rest ← lineRest rest
      some (⟨entries, path ++ [name]⟩, rest)
    | _ => none
  | input => do
    let (path, name, rest) ← keyStep input
    match rest with
    | '=' :: rest =>
      let (value, rest) ← valueStep (2 * rest.length + 2) depthLimit (skipSpace rest)
      let entries ← addBelow document.header path name value document.entries
      let rest ← lineRest rest
      some ({ document with entries }, rest)
    | _ => none

def linesFrom : Nat → Document → List Char → Option Document
  | 0, document, _ => some document
  | fuel + 1, document, input =>
    match skipLinesOrEnd (input.length + 1) input with
    | none => none
    | some [] => some document
    | some rest =>
      match lineStep document rest with
      | none => none
      | some (document, rest) => linesFrom fuel document rest
where
  skipLinesOrEnd : Nat → List Char → Option (List Char)
    | 0, input => some input
    | fuel + 1, input =>
      match skipSpace input with
      | [] => some []
      | '#' :: rest => (lineEnd (rest.dropWhile isPlainChar)).bind (skipLinesOrEnd fuel)
      | '\n' :: rest => skipLinesOrEnd fuel rest
      | '\r' :: '\n' :: rest => skipLinesOrEnd fuel rest
      | rest => some rest

def byteOrderMark : Char := '\uFEFF'

def read (text : String) : Option Value :=
  let input := match text.toList with
    | c :: rest => if c = byteOrderMark then rest else c :: rest
    | [] => []
  (linesFrom (input.length + 1) ⟨[], []⟩ input).map fun document =>
    .table (entryValues document.entries)

end Premerge.Data.Toml
