import TypedStyle.Sheet
import TypedStyle.Stop

/-!
Flat CSS. A rule becomes one block with its own declarations, if it has any, and its nested rules
become blocks after it. Each block is headed by every path of selectors that leads to its rule.
-/

namespace TypedStyle.Css

structure Block where
  paths : List (List Selector)
  settings : List (Property × Literal)
  deriving DecidableEq

/-- The paths to a rule, given those to the rule around it. Where there are none around it, its
own selectors start the paths. -/
def extendPaths (paths : List (List Selector)) (selectors : List Selector) :
    List (List Selector) :=
  if paths.isEmpty then selectors.map fun selector => [selector]
  else paths.flatMap fun path => selectors.map fun selector => path ++ [selector]

/-- What a declaration sets, provided that it holds a literal and that its line, indented by
`indent` columns, can be written. -/
def setting (indent : Nat) (declared : Declaration) :
    Except (Stop Diagnostic) (Property × Literal) :=
  match declared.value with
  | .literal value _ =>
      if indent ≤ widestField then .ok (declared.property, value)
      else .error (.breach .fieldTooWide)
  | value => .error (.fault ⟨.unevaluatedExpression, value.span.start⟩)

def settings (indent : Nat) : Body → Except (Stop Diagnostic) (List (Property × Literal))
  | .empty => .ok []
  | .declaration declared later => do
      let first ← setting indent declared
      return first :: (← settings indent later)
  | .assignment _ later | .rule _ _ _ later => settings indent later

def blocks (indent : Nat) (paths : List (List Selector)) :
    Body → Except (Stop Diagnostic) (List Block)
  | .empty => .ok []
  | .declaration _ later | .assignment _ later => blocks indent paths later
  | .rule selectors inner _ later => do
      let here := extendPaths paths selectors
      let own ← settings indent inner
      let nested ← blocks indent here inner
      let after ← blocks indent paths later
      return (if own.isEmpty then [] else [⟨here, own⟩]) ++ nested ++ after

def pathText (path : List Selector) : String := " ".intercalate (path.map Selector.text)

def settingText (indent : Nat) (setting : Property × Literal) : String :=
  String.ofList (List.replicate indent ' ') ++ setting.1.name ++ ": " ++ setting.2.text ++ ";\n"

def Block.text (indent : Nat) (block : Block) : String :=
  ", ".intercalate (block.paths.map pathText) ++ " \x7b\n" ++
    String.join (block.settings.map (settingText indent)) ++ "\x7d"

def text (indent : Nat) (blocks : List Block) : String :=
  if blocks.isEmpty then "" else "\n\n".intercalate (blocks.map (Block.text indent)) ++ "\n"

end TypedStyle.Css

namespace TypedStyle

def Sheet.css (indent : Nat) (sheet : Sheet) : Except (Stop Diagnostic) String := do
  let blocks ← Css.blocks indent [] sheet.body
  return Css.text indent blocks

end TypedStyle
