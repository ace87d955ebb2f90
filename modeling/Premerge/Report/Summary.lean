import Premerge.Report.Fragment
import Premerge.Text.Line

namespace Premerge.Report

open Premerge.Data

structure Summary where
  text : String
  included : List String
  deriving DecidableEq, Repr

namespace Summary

def empty : Summary := ⟨"", []⟩

def isEmpty (s : Summary) : Bool := s.text.isEmpty

def standardOrder : List String :=
  ["pytest", "coverage", "migrations", "pylint", "black", "isort", "bandit"]

def statusHeading : String := "### Job status"

def find? (fragments : List Fragment) (name : String) : Option Fragment :=
  fragments.find? (·.name == name)

def selected (order : List String) (fragments : List Fragment) : List Fragment :=
  order.filterMap (find? fragments)

def unplaced (order : List String) (fragments : List Fragment) : List String :=
  (fragments.map Fragment.name).filter (!order.contains ·)

def statusLine (failure : String) : String :=
  "- " ++ Text.Line.joined failure ++ "\n"

def status (failures : List String) : String :=
  if failures.isEmpty then ""
  else statusHeading ++ "\n\n" ++ String.join (failures.map statusLine)

def compose (order : List String) (fragments : List Fragment) (failures : List String) :
    Summary :=
  let chosen := selected order fragments
  ⟨String.join (chosen.map Fragment.body) ++ status failures, chosen.map Fragment.name⟩

def decoder : Decoder Summary := fun reading value => do
  let fields ← Fields.ofValue reading ["text", "included"] value
  some ⟨← fields.required reading "text" .text, ← fields.required reading "included" (.list .text)⟩

def toValue (s : Summary) : Value :=
  .table [("text", .text s.text), ("included", .texts s.included)]

end Summary

end Premerge.Report
