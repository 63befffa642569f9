import TypedStyle.Walk

/-!
Types of expressions, and the checking of a stylesheet against them. Checking finds every fault
it can: it attaches a diagnostic to each node that breaks a rule and goes on. A node that breaks
none keeps the diagnostic it had.
-/

namespace TypedStyle

namespace Operator

/-- The type of an operation. A scalar on the left takes the type of its partner. -/
def resultType (lhs rhs : ValueType) : ValueType := if lhs = .scalar then rhs else lhs

/-- The rule that operands of these types break. A color is reported before all else. -/
def violation? (operator : Operator) (lhs rhs : ValueType) : Option Fault :=
  if lhs = .color ∨ rhs = .color then some .colorInOperation
  else
    match operator with
    | .add | .subtract => if lhs ≠ rhs then some .operandTypeMismatch else none
    | .multiply => if lhs ≠ .scalar ∧ rhs ≠ .scalar then some .missingScalarOperand else none

end Operator

def annotate (violation? : Option Fault) (span : Span) (before : Option Diagnostic) :
    Option Diagnostic :=
  match violation? with
  | some fault => some ⟨fault, span.start⟩
  | none => before

namespace Expr

def typeIn (scopes : Scopes ValueType) : Expr → ValueType
  | .literal value _ => value.type
  | .reference name _ _ => (scopes.resolve? name).getD .undefined
  | .operation _ lhs rhs _ _ => Operator.resultType (lhs.typeIn scopes) (rhs.typeIn scopes)

def check (scopes : Scopes ValueType) : Expr → Expr
  | .literal value span => .literal value span
  | .reference name span before =>
      let violation? := if scopes.isBound name then none else some (.undefinedVariable name)
      .reference name span (annotate violation? span before)
  | .operation operator lhs rhs span before =>
      let violation? := operator.violation? (lhs.typeIn scopes) (rhs.typeIn scopes)
      .operation operator (lhs.check scopes) (rhs.check scopes) span
        (annotate violation? span before)

end Expr

def Assignment.check (scopes : Scopes ValueType) (assigned : Assignment) : Assignment :=
  { assigned with value := assigned.value.check scopes }

def Declaration.check (scopes : Scopes ValueType) (declared : Declaration) : Declaration :=
  let type := declared.value.typeIn scopes
  let violation? :=
    if declared.property.allows type then none
    else some (.typeNotAllowed type declared.property.name)
  { declared with
    value := declared.value.check scopes
    diagnostic := annotate violation? declared.span declared.diagnostic }

def Pass.typing : Pass ValueType Unit Empty where
  assignment scopes notes assigned :=
    ⟨scopes.bind assigned.name (assigned.value.typeIn scopes), notes, assigned.check scopes, none⟩
  declaration scopes notes declared := ⟨scopes, notes, declared.check scopes, none⟩

def Body.check (scopes : Scopes ValueType) (body : Body) : Body :=
  (Pass.typing.walk scopes () body).node

def Sheet.check (sheet : Sheet) : Sheet := { sheet with body := sheet.body.check .initial }

end TypedStyle
