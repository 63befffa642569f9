import TypedStyle.Css
import TypedStyle.Evaluation
import TypedStyle.Sheet.Reading
import TypedStyle.Token.Lexeme
import TypedStyle.Typing

/-!
From source text to CSS. A source that cannot be read is rejected with one diagnostic, and one
that is read and does not check with all diagnostics that checking finds.
-/

namespace TypedStyle

def Stop.map {Reason Other : Type} (change : Reason → Other) : Stop Reason → Stop Other
  | .fault reason => .fault (change reason)
  | .breach cause => .breach cause

abbrev Compiled := Except (Stop (List Diagnostic))

def Compiled.ofStage {Result : Type} (stage : Except (Stop Diagnostic) Result) : Compiled Result :=
  stage.mapError (Stop.map fun diagnostic => [diagnostic])

def Sheet.ofSource (source file : String) : Except (Stop Diagnostic) Sheet :=
  match Token.ofSource source file with
  | .ok tokens => Sheet.ofTokens tokens file
  | .error diagnostic => .error (.fault diagnostic)

def checkedSheet (source file : String) : Compiled Sheet := do
  let sheet ← Compiled.ofStage (Sheet.ofSource source file)
  let checked := sheet.check
  if checked.isClean then return checked else throw (.fault checked.diagnostics)

def checkSource (source file : String) : Compiled Unit := do
  let sheet ← Compiled.ofStage (Sheet.ofSource source file)
  let checked := sheet.check
  unless checked.isClean do throw (.fault checked.diagnostics)

def compile (source file : String) (indent : Nat) : Compiled String := do
  let checked ← checkedSheet source file
  let evaluated ← Compiled.ofStage (checked.evaluate.mapError Stop.fault)
  Compiled.ofStage (evaluated.css indent)

end TypedStyle
