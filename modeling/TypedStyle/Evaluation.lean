import TypedStyle.Walk

/-!
Evaluation of a stylesheet: every expression is folded to a literal, which takes the place and the
span of the expression. It stops at the first expression that has no value.
-/

namespace TypedStyle

def Expr.fold (scopes : Scopes Literal) : Expr → Except Diagnostic Literal
  | .literal value _ => .ok value
  | .reference name span _ =>
      match scopes.resolve? name with
      | some value => .ok value
      | none => .error ⟨.unresolvedVariable name, span.start⟩
  | .operation operator lhs rhs span _ => do
      let left ← lhs.fold scopes
      let right ← rhs.fold scopes
      match operator.value? left right with
      | some value => .ok value
      | none => .error ⟨.incompatibleOperands operator.symbol, span.start⟩

def Pass.folding : Pass Literal Unit Diagnostic where
  assignment scopes notes assigned :=
    match assigned.value.fold scopes with
    | .ok value =>
        ⟨scopes.bind assigned.name value, notes,
          { assigned with value := .literal value assigned.value.span }, none⟩
    | .error diagnostic => ⟨scopes, notes, assigned, some diagnostic⟩
  declaration scopes notes declared :=
    match declared.value.fold scopes with
    | .ok value =>
        ⟨scopes, notes, { declared with value := .literal value declared.value.span }, none⟩
    | .error diagnostic => ⟨scopes, notes, declared, some diagnostic⟩

def Body.evaluate (scopes : Scopes Literal) (body : Body) : Except Diagnostic Body :=
  let visit := Pass.folding.walk scopes () body
  match visit.failure? with
  | none => .ok visit.node
  | some diagnostic => .error diagnostic

def Sheet.evaluate (sheet : Sheet) : Except Diagnostic Sheet := do
  let body ← sheet.body.evaluate .initial
  return { sheet with body }

end TypedStyle
