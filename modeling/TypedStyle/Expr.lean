import TypedStyle.Diagnostic

/-!
Expressions as trees. Every node knows its span, and references and operations have room for the
one diagnostic that checking may attach to them.
-/

namespace TypedStyle

inductive Expr where
  | literal (value : Literal) (span : Span)
  | reference (name : String) (span : Span) (diagnostic : Option Diagnostic)
  | operation (operator : Operator) (lhs rhs : Expr) (span : Span)
      (diagnostic : Option Diagnostic)
  deriving DecidableEq

def Expr.span : Expr → Span
  | .literal _ span | .reference _ span _ | .operation _ _ _ span _ => span

def Expr.diagnostic? : Expr → Option Diagnostic
  | .literal _ _ => none
  | .reference _ _ diagnostic | .operation _ _ _ _ diagnostic => diagnostic

/-- All attached diagnostics, those of operands before that of their operation. -/
def Expr.diagnostics : Expr → List Diagnostic
  | .literal _ _ => []
  | .reference _ _ diagnostic => diagnostic.toList
  | .operation _ lhs rhs _ diagnostic => lhs.diagnostics ++ rhs.diagnostics ++ diagnostic.toList

end TypedStyle
