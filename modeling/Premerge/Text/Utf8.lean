/-! `encode` writes a text as octets. `decode` reads octets one at a time: it knows how many octets
of a character are still owed and between which bounds the next one has to lie, so it finds an error
at the first octet that rules the character out. Each such maximal piece of no character becomes one
replacement character. `readStrict` refuses instead. -/

namespace Premerge.Text.Utf8

abbrev Octets := List UInt8

def encodeChars (text : List Char) : Octets :=
  text.flatMap String.utf8EncodeChar

def encode (text : String) : Octets :=
  encodeChars text.toList

def replacement : Char := '\uFFFD'

structure Partial where
  owed : Nat
  low : Nat := 0x80
  high : Nat := 0xBF
  bits : Nat
  deriving DecidableEq, Repr

inductive Lead where
  | whole (c : Char)
  | started (part : Partial)
  | refused
  deriving DecidableEq, Repr

def lead (octet : Nat) : Lead :=
  if octet < 0x80 then .whole (Char.ofNat octet)
  else if octet < 0xC2 then .refused
  else if octet < 0xE0 then .started ⟨0, 0x80, 0xBF, octet - 0xC0⟩
  else if octet = 0xE0 then .started ⟨1, 0xA0, 0xBF, 0⟩
  else if octet = 0xED then .started ⟨1, 0x80, 0x9F, 0xD⟩
  else if octet < 0xF0 then .started ⟨1, 0x80, 0xBF, octet - 0xE0⟩
  else if octet = 0xF0 then .started ⟨2, 0x90, 0xBF, 0⟩
  else if octet < 0xF4 then .started ⟨2, 0x80, 0xBF, octet - 0xF0⟩
  else if octet = 0xF4 then .started ⟨2, 0x80, 0x8F, 4⟩
  else .refused

abbrev Piece := Option Char

def piecesFrom : Option Partial → Octets → List Piece
  | none, [] => []
  | some _, [] => [none]
  | none, octet :: rest =>
    match lead octet.toNat with
    | .whole c => some c :: piecesFrom none rest
    | .started part => piecesFrom (some part) rest
    | .refused => none :: piecesFrom none rest
  | some part, octet :: rest =>
    if part.low ≤ octet.toNat ∧ octet.toNat ≤ part.high then
      let bits := part.bits * 64 + (octet.toNat - 0x80)
      match part.owed with
      | 0 => some (Char.ofNat bits) :: piecesFrom none rest
      | owed + 1 => piecesFrom (some ⟨owed, 0x80, 0xBF, bits⟩) rest
    else
      none :: match lead octet.toNat with
        | .whole c => some c :: piecesFrom none rest
        | .started part => piecesFrom (some part) rest
        | .refused => none :: piecesFrom none rest

def decodeChars (octets : Octets) : List Char :=
  (piecesFrom none octets).map (·.getD replacement)

def decode (octets : Octets) : String :=
  String.ofList (decodeChars octets)

def readStrict (octets : Octets) : Option String :=
  ((piecesFrom none octets).mapM id).map String.ofList

end Premerge.Text.Utf8
