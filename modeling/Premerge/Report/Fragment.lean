import Premerge.Data.Record
import Premerge.Text.Blank
import Premerge.Text.Capital

namespace Premerge.Report

open Premerge.Data

structure Fragment where
  name : String
  body : String
  deriving DecidableEq, Repr, Inhabited

namespace Fragment

def isWordBreak (c : Char) : Bool :=
  c == '_' || c == '-' || Text.isBlank c

def wordsOf : List Char → List (List Char)
  | [] => []
  | c :: rest =>
    if isWordBreak c then wordsOf rest
    else match rest, wordsOf rest with
      | d :: _, word :: more => if isWordBreak d then [c] :: word :: more else (c :: word) :: more
      | _, more => [c] :: more

def capitalized : List Char → List Char
  | [] => []
  | c :: rest => Text.Capital.upper c ++ rest

def title (name : String) : String :=
  " ".intercalate ((wordsOf name.toList).map fun word => String.ofList (capitalized word))

def fence : String := "```"

def opening (name : String) : String :=
  "<details><summary>" ++ title name ++ "</summary>\n\n" ++ fence ++ "\n"

def closing : String :=
  "\n" ++ fence ++ "\n\n</details>\n\n"

def block (name text : String) : String :=
  opening name ++ String.ofList (Text.trimLineEnds text.toList) ++ closing

def ofText? (name text : String) : Option Fragment :=
  if text.toList.all Text.isBlank then none else some ⟨name, block name text⟩

def decoder : Decoder Fragment := fun reading value => do
  let fields ← Fields.ofValue reading ["name", "body"] value
  some ⟨← fields.required reading "name" .text, ← fields.required reading "body" .text⟩

def toValue (f : Fragment) : Value :=
  .table [("name", .text f.name), ("body", .text f.body)]

end Fragment

end Premerge.Report
