import Premerge.Text.Glyphless

/-! A text between double quotes, such that each of its characters can be told apart: the quote and
the backslash get a backslash, the common controls a letter, and every other character without a
glyph of its own is written by number. -/

namespace Premerge.Text.Quoted

open Premerge.Text.Glyphless

def quote : Char := '\x22'

def escaped (c : Char) : List Char :=
  if c = Char.ofNat 0 then ['\\', '0']
  else if c = '\t' then ['\\', 't']
  else if c = '\n' then ['\\', 'n']
  else if c = '\r' then ['\\', 'r']
  else if c = quote ∨ c = '\\' then ['\\', c]
  else if isGlyphless c then ['\\', 'u', '\x7b'] ++ Nat.toDigits 16 c.toNat ++ ['\x7d']
  else [c]

def quoted (text : String) : String :=
  String.ofList (quote :: text.toList.flatMap escaped ++ [quote])

def quotedList (texts : List String) : String :=
  "[" ++ ", ".intercalate (texts.map quoted) ++ "]"

end Premerge.Text.Quoted
