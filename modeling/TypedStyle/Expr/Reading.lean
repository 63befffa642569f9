import TypedStyle.Color
import TypedStyle.Expr
import TypedStyle.Expr.Grammar
import TypedStyle.Text.Numeral
import TypedStyle.Token.Cursor

/-!
Reading expressions. An operand is read first and then extended to the right, as long as the token
after it binds more tightly than the power asked for. So an operator takes the longest operand on
its right that binds more tightly than itself, and operators of one power group to the left.
-/

namespace TypedStyle

def Token.magnitude (token : Token) (unit : String) : Except Fault Int32 :=
  let text := token.text.toList
  let digits :=
    if unit.toList <:+ text then text.take (text.length - unit.toList.length) else text
  match Text.signed32? digits with
  | some magnitude => .ok magnitude
  | none => .error (.unreadableNumber token.text)

def Token.color (token : Token) (valid : Bool) : Except Fault Literal :=
  if valid then .ok (.color token.text) else .error (.invalidColor token.text)

def Token.operand (token : Token) : Except Fault Expr := do
  let literal (value : Literal) : Expr := .literal value token.span
  match token.kind with
  | .pixel => return literal (.pixel (← token.magnitude "px"))
  | .percentage => return literal (.percentage (← token.magnitude "%"))
  | .scalar => return literal (.scalar (← token.magnitude ""))
  | .hash => return literal (← token.color (Color.isHex token.text))
  | .identifier => return literal (← token.color (Color.hex? token.text).isSome)
  | .variableName => return .reference token.text token.span none
  | _ => .error (.unexpectedToken token.text)

def TokenKind.operator? : TokenKind → Option Operator
  | .plus => some .add
  | .dash => some .subtract
  | .star => some .multiply
  | _ => none

namespace Read

def primary : Read Expr := do
  let token ← current
  match token.operand with
  | .ok expr =>
      let _ ← advance
      return expr
  | .error fault => reject ⟨fault, token.span.start⟩

def groupingOf (inner : Read Expr) : Read Expr := do
  let _ ← advance
  let expr ← inner
  let _ ← expect .closeParen
  return expr

def operationOf (right : Read Expr) (lhs : Expr) : Read Expr := do
  match (← current).kind.operator? with
  | some operator =>
      let _ ← advance
      let rhs ← right
      return .operation operator lhs rhs ⟨lhs.span.start, rhs.span.stop⟩ none
  | none => unexpected

def operandOf (grammar : Grammar) (inner : Read Expr) : Read Expr := do
  match grammar.operand? (← current).kind with
  | some .primary => primary
  | some .grouping => groupingOf inner
  | none => unexpected

/-! ### Operands and operators in turn

Every step passes a token, so that the tokens left bound the number of steps. -/

mutual

def exprWithin (grammar : Grammar) : List Token → Power → Read Expr
  | [], _ => unexpected
  | _ :: bound, power => do
      let left ← operandOf grammar (exprWithin grammar bound .lowest)
      extendWithin grammar bound power left

def extendWithin (grammar : Grammar) : List Token → Power → Expr → Read Expr
  | [], _, _ => unexpected
  | _ :: bound, power, left => do
      let kind := (← current).kind
      if (grammar.power kind).rank ≤ power.rank then return left
      else if grammar.joins kind then
        let whole ← operationOf (exprWithin grammar bound (grammar.power kind)) left
        extendWithin grammar bound power whole
      else unexpected

end

/-- An expression in which every operator binds more tightly than `power`. -/
def expr (grammar : Grammar) (power : Power) : Read Expr := fun cursor =>
  exprWithin grammar cursor.left power cursor

def grouping (grammar : Grammar) : Read Expr := groupingOf (expr grammar .lowest)

def operation (grammar : Grammar) (lhs : Expr) (power : Power) : Read Expr :=
  operationOf (expr grammar power) lhs

end Read

end TypedStyle
