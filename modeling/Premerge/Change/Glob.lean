/-! A glob is a pattern for whole paths. `compile` gives its tokens, or the place of its fault;
`matches` decides whether a path fits. A question mark, a class and a star never match a slash; two
stars that take a whole part of the path match any number of parts. -/

namespace Premerge.Change.Glob

inductive Item where
  | single (c : Char)
  | range (first last : Char)
  deriving DecidableEq, Repr

def Item.holds (c : Char) : Item → Bool
  | .single x => x == c
  | .range first last => first ≤ c && c ≤ last

inductive Token where
  | literal (c : Char)
  | anyChar
  | sequence
  /-- Nothing, or anything up to a slash; at the end of a pattern anything. -/
  | recursive
  | within (items : List Item)
  | without (items : List Item)
  deriving DecidableEq, Repr

inductive Fault where
  | wildcards
  | recursive
  | range
  deriving DecidableEq, Repr

structure PatternError where
  position : Nat
  fault : Fault
  deriving DecidableEq, Repr

def Fault.message : Fault → String
  | .wildcards => "wildcards are either regular `*` or recursive `**`"
  | .recursive => "recursive wildcards must form a single path component"
  | .range => "invalid range pattern"

def PatternError.message (e : PatternError) : String :=
  "Pattern syntax error near position " ++ toString e.position ++ ": " ++ e.fault.message

def items : List Char → List Item
  | first :: '-' :: last :: rest => .range first last :: items rest
  | c :: rest => .single c :: items rest
  | [] => []

def splitAtBracket : List Char → Option (List Char × List Char)
  | [] => none
  | c :: rest =>
    if c = ']' then some ([], rest)
    else (splitAtBracket rest).map fun (inside, behind) => (c :: inside, behind)

/-- The class that starts behind an opening bracket, and the characters behind it. Its first
character belongs to it even if it is a closing bracket. -/
def classStep : List Char → Option (Token × List Char)
  | '!' :: first :: rest =>
    (splitAtBracket rest).map fun (inside, behind) => (.without (items (first :: inside)), behind)
  | first :: rest =>
    if first = '!' then none
    else (splitAtBracket rest).map fun (inside, behind) =>
      (.within (items (first :: inside)), behind)
  | [] => none

/-- The tokens with one more recursive wildcard; a second one behind other tokens adds nothing. -/
def pushRecursive (done : List Token) : List Token :=
  match done with
  | .recursive :: _ :: _ => done
  | _ => .recursive :: done

/-- The tokens of a pattern from a position on. `before` is the character in front of it, `done`
holds the tokens so far, the latest first. -/
def scan (before : Option Char) (position : Nat) (done : List Token) :
    List Char → Nat → Except PatternError (List Token)
  | [], _ => .ok done.reverse
  | _ :: _, 0 => .ok done.reverse
  | '?' :: rest, fuel + 1 => scan (some '?') (position + 1) (.anyChar :: done) rest fuel
  | '*' :: '*' :: '*' :: _, _ + 1 => .error ⟨position + 2, .wildcards⟩
  | '*' :: '*' :: rest, fuel + 1 =>
    -- Two stars are a whole part of the path, or a fault.
    if before = none ∨ before = some '/' then
      match rest with
      | [] => .ok (pushRecursive done).reverse
      | '/' :: rest => scan (some '/') (position + 3) (pushRecursive done) rest fuel
      | _ :: _ => .error ⟨position + 2, .recursive⟩
    else .error ⟨position - 1, .recursive⟩
  | '*' :: rest, fuel + 1 => scan (some '*') (position + 1) (.sequence :: done) rest fuel
  | '[' :: rest, fuel + 1 =>
    match classStep rest with
    | none => .error ⟨position, .range⟩
    | some (token, behind) =>
      scan (some ']') (position + 1 + (rest.length - behind.length)) (token :: done) behind fuel
  | c :: rest, fuel + 1 => scan (some c) (position + 1) (.literal c :: done) rest fuel

def compile (pattern : String) : Except PatternError (List Token) :=
  let chars := pattern.toList
  scan none 0 [] chars chars.length

def behindSlashes : List Char → List (List Char)
  | [] => []
  | c :: rest => if c = '/' then rest :: behindSlashes rest else behindSlashes rest

def partStarts (text : List Char) : List (List Char) :=
  text :: behindSlashes text

def withinPart : List Char → List (List Char)
  | [] => [[]]
  | c :: rest => (c :: rest) :: if c = '/' then [] else withinPart rest

def Token.accepts (c : Char) : Token → Bool
  | .literal x => x == c
  | .anyChar => c != '/'
  | .within items => c != '/' && items.any (·.holds c)
  | .without items => c != '/' && !items.any (·.holds c)
  | .sequence | .recursive => false

def matchesFrom : List Token → List Char → Bool
  | [], text => text.isEmpty
  | .recursive :: [], _ => true
  | .recursive :: token :: rest, text => (partStarts text).any (matchesFrom (token :: rest))
  | .sequence :: rest, text => (withinPart text).any (matchesFrom rest)
  | token :: rest, text =>
    match text with
    | [] => false
    | c :: text => token.accepts c && matchesFrom rest text

def matchesPath (tokens : List Token) (path : String) : Bool :=
  matchesFrom tokens path.toList

end Premerge.Change.Glob
