import TypedStyle.Text.Quoted
import TypedStyle.Value

/-!
What can be wrong with a stylesheet. A fault is a cause with the text or type it is about. The
wording of messages and tips stands here once.
-/

namespace TypedStyle

inductive Fault where
  | unrecognisedToken (token : String)
  | unexpectedToken (token : String)
  | unreadableNumber (token : String)
  | unknownProperty (property : String)
  | invalidColor (token : String)
  | undefinedVariable (name : String)
  | colorInOperation
  | operandTypeMismatch
  | missingScalarOperand
  | typeNotAllowed (type : ValueType) (property : String)
  | unresolvedVariable (name : String)
  | incompatibleOperands (operator : String)
  | unevaluatedExpression
  deriving DecidableEq

namespace Fault

open Text (quoted)

def name : Fault → String
  | .unrecognisedToken _ => "UnrecognisedToken"
  | .unexpectedToken _ => "UnexpectedToken"
  | .unreadableNumber _ => "NumberParseError"
  | .unknownProperty _ => "UnknownProperty"
  | .invalidColor _ => "InvalidColor"
  | .undefinedVariable _ => "VariableNotDefined"
  | .colorInOperation => "ColorInOperation"
  | .operandTypeMismatch => "OperandTypeMismatch"
  | .missingScalarOperand => "MissingScalarOperand"
  | .typeNotAllowed _ _ => "PropertyTypeNotAllowed"
  | .unresolvedVariable _ => "UnresolvedVariable"
  | .incompatibleOperands _ => "IncompatibleOperands"
  | .unevaluatedExpression => "UnevaluatedExpression"

def message : Fault → String
  | .unrecognisedToken token => "unrecognised token: " ++ quoted token
  | .unexpectedToken token => "unexpected token: " ++ quoted token
  | .unreadableNumber token => "error parsing number: " ++ quoted token
  | .unknownProperty property => "unknown property " ++ quoted property
  | .invalidColor token => "invalid color " ++ quoted token
  | .undefinedVariable name => "Variable '" ++ name ++ "' not defined!"
  | .colorInOperation => "An equation cannot contain a color."
  | .operandTypeMismatch =>
      "The types have to be equal to each other when adding or subtracting."
  | .missingScalarOperand => "Multiplying requires one scalar type in the equation."
  | .typeNotAllowed type property =>
      "An expression with the type of '" ++ type.name ++ "' is not allowed on the " ++ property ++
        " property."
  | .unresolvedVariable name => "variable " ++ quoted name ++ " has no value in scope"
  | .incompatibleOperands operator => "operands of `" ++ operator ++ "` cannot be combined"
  | .unevaluatedExpression => "expression was not evaluated to a literal"

def tip? (fault : Fault) : Option String :=
  match fault with
  | .unrecognisedToken _ => none
  | .unexpectedToken token =>
      some ("Unexpected token: `" ++ token ++ "`, did you miss a semicolon?")
  | .unreadableNumber token =>
      some ("Invalid number: `" ++ token ++ "`, is it above the integer limit?")
  | .unknownProperty property =>
      some ("Unknown property `" ++ property ++
        "`, expected one of color, background-color, width or height")
  | .invalidColor token =>
      some ("Invalid color `" ++ token ++
        "`, colors are written as #rgb, #rrggbb or a color name")
  | .unresolvedVariable _ | .incompatibleOperands _ | .unevaluatedExpression =>
      some (fault.message ++ ", was the stylesheet type checked?")
  | .undefinedVariable _ | .colorInOperation | .operandTypeMismatch | .missingScalarOperand
  | .typeNotAllowed _ _ => some fault.message

end Fault

end TypedStyle
