/-!
Values of a stylesheet and their arithmetic. Magnitudes are 32-bit words and wrap around.
Addition and subtraction join two numbers of one type; multiplication scales any number by a
plain one.
-/

namespace TypedStyle

/-- The type `undefined` is that of a reference to a variable without a binding. -/
inductive ValueType where
  | pixel
  | percentage
  | scalar
  | color
  | undefined
  deriving DecidableEq

def ValueType.name : ValueType → String
  | .pixel => "PIXEL"
  | .percentage => "PERCENTAGE"
  | .scalar => "SCALAR"
  | .color => "COLOR"
  | .undefined => "UNDEFINED"

inductive Literal where
  | pixel (magnitude : Int32)
  | percentage (magnitude : Int32)
  | scalar (magnitude : Int32)
  | color (text : String)
  deriving DecidableEq

namespace Literal

def type : Literal → ValueType
  | .pixel _ => .pixel
  | .percentage _ => .percentage
  | .scalar _ => .scalar
  | .color _ => .color

def magnitude? : Literal → Option Int32
  | .pixel magnitude | .percentage magnitude | .scalar magnitude => some magnitude
  | .color _ => none

def withMagnitude? (literal : Literal) (magnitude : Int32) : Option Literal :=
  match literal with
  | .pixel _ => some (.pixel magnitude)
  | .percentage _ => some (.percentage magnitude)
  | .scalar _ => some (.scalar magnitude)
  | .color _ => none

def text : Literal → String
  | .pixel magnitude => toString magnitude.toInt ++ "px"
  | .percentage magnitude => toString magnitude.toInt ++ "%"
  | .scalar magnitude => toString magnitude.toInt
  | .color text => text

end Literal

inductive Operator where
  | add
  | subtract
  | multiply
  deriving DecidableEq

namespace Operator

def symbol : Operator → String
  | .add => "+"
  | .subtract => "-"
  | .multiply => "*"

def combine? (join : Int32 → Int32 → Int32) (lhs rhs : Literal) : Option Literal :=
  if lhs.type = rhs.type then
    match lhs.magnitude?, rhs.magnitude? with
    | some left, some right => lhs.withMagnitude? (join left right)
    | _, _ => none
  else none

def scale? (factor : Int32) (literal : Literal) : Option Literal :=
  match literal.magnitude? with
  | some magnitude => literal.withMagnitude? (magnitude * factor)
  | none => none

def value? (operator : Operator) (lhs rhs : Literal) : Option Literal :=
  match operator with
  | .add => combine? (· + ·) lhs rhs
  | .subtract => combine? (· - ·) lhs rhs
  | .multiply =>
      match lhs, rhs with
      | .scalar factor, other => scale? factor other
      | other, .scalar factor => scale? factor other
      | _, _ => none

end Operator

end TypedStyle
