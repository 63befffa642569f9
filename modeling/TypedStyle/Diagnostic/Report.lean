import TypedStyle.Diagnostic
import TypedStyle.Stop
import TypedStyle.Text.Blank
import TypedStyle.Text.Line

/-!
Reports: a diagnostic shown with the source line it is about and an arrow to its column.

    Error: VariableNotDefined (Variable '@x' not defined!)
    -> style
       |
    20 | .a { width: @x + 5%; }
       | ------------^
-/

namespace TypedStyle

open Text

def Text.padLeft (fill : Char) (width : Nat) (text : List Char) : List Char :=
  List.replicate (width - text.length) fill ++ text

def Text.isIndent (char : Char) : Bool := char == ' ' || char == '\t'

/-- The numbered line of a place and the arrow under it. The line is shown without its indentation
and without the blanks at its end. -/
def Text.Place.report (place : Place) : Except Breach (List Char) :=
  let number := (toString place.line).toList
  let bar := padLeft ' ' (number.length + 2) ['|']
  let line := place.text.dropWhile isIndent
  let removed := place.text.length - line.length
  let arrow := place.column - removed + 1
  if arrow ≤ widestField then
    .ok (bar ++ ['\n'] ++ number ++ [' ', '|', ' '] ++ trimBlankEnd line ++ ['\n'] ++
      bar ++ [' '] ++ padLeft '-' arrow ['^'] ++ ['\n'])
  else .error .fieldTooWide

namespace Diagnostic

def heading (diagnostic : Diagnostic) : String :=
  let tip := match diagnostic.fault.tip? with
    | some tip => " (" ++ tip ++ ")"
    | none => ""
  "Error: " ++ diagnostic.fault.name ++ tip ++ "\n-> " ++ diagnostic.position.file ++ "\n"

/-- The report against `source`: the heading alone where the source has no such offset. -/
def report (diagnostic : Diagnostic) (source : String) : Except Breach String :=
  match place? source.toList diagnostic.position.offset.toNat with
  | none => .ok diagnostic.heading
  | some place => do
      let excerpt ← place.report
      return diagnostic.heading ++ String.ofList excerpt

end Diagnostic

end TypedStyle
