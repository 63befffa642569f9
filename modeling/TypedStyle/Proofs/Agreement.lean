import TypedStyle.Proofs.Checking
import TypedStyle.Proofs.Folding

/-!
Checking agrees with evaluation. The scopes of checking hold the types of the values that the
scopes of evaluation hold, and stay so from item to item. Hence a stylesheet checks without
diagnostics exactly when it evaluates to literals that its properties allow, and where evaluation
stops, checking has complained in the same place.
-/

namespace TypedStyle

namespace Operator

-- Both functions tell apart only kinds of literals, so that all pairs of kinds are looked at.
theorem resultType_of_value? {operator : Operator} {lhs rhs value : Literal}
    (computed : operator.value? lhs rhs = some value) :
    resultType lhs.type rhs.type = value.type := by
  cases operator <;> cases lhs <;> cases rhs <;>
    simp [value?, combine?, scale?, Literal.type, Literal.magnitude?, Literal.withMagnitude?,
      resultType] at computed ⊢ <;>
    simp [← computed]

theorem violation?_eq_none_iff {operator : Operator} {lhs rhs : Literal} :
    operator.violation? lhs.type rhs.type = none ↔ (operator.value? lhs rhs).isSome := by
  cases operator <;> cases lhs <;> cases rhs <;>
    simp [value?, combine?, scale?, Literal.type, Literal.magnitude?, Literal.withMagnitude?,
      violation?]

theorem violation?_of_value?_none {operator : Operator} {lhs rhs : Literal}
    (stuck : operator.value? lhs rhs = none) :
    ∃ fault, operator.violation? lhs.type rhs.type = some fault := by
  cases violated : operator.violation? lhs.type rhs.type with
  | some fault => exact ⟨fault, rfl⟩
  | none =>
      have computed := violation?_eq_none_iff.mp violated
      rw [stuck] at computed
      cases computed

end Operator

/-- The diagnostic `checked` is attached to the expression at which evaluation stops with
`stopped`, and for the same cause. -/
def Foretells (checked stopped : Diagnostic) : Prop :=
  checked.position = stopped.position ∧
    match checked.fault with
    | .undefinedVariable name => stopped.fault = .unresolvedVariable name
    | .colorInOperation | .operandTypeMismatch | .missingScalarOperand =>
        ∃ operator, stopped.fault = .incompatibleOperands operator
    | _ => False

def Diagnostic.isTypeNotAllowed (diagnostic : Diagnostic) : Bool :=
  match diagnostic.fault with
  | .typeNotAllowed _ _ => true
  | _ => false

theorem Foretells.not_typeNotAllowed {checked stopped : Diagnostic}
    (foretold : Foretells checked stopped) : checked.isTypeNotAllowed = false := by
  obtain ⟨fault, position⟩ := checked
  cases fault with
  | typeNotAllowed type property => exact foretold.2.elim
  | _ => rfl

theorem Foretells.causes {checked stopped : Diagnostic} (foretold : Foretells checked stopped) :
    (∀ name, stopped.fault = .unresolvedVariable name ↔ checked.fault = .undefinedVariable name) ∧
    ((∃ operator, stopped.fault = .incompatibleOperands operator) ↔
      checked.fault = .colorInOperation ∨ checked.fault = .operandTypeMismatch ∨
        checked.fault = .missingScalarOperand) := by
  obtain ⟨_, cause⟩ := foretold
  split at cause
  · rename_i name named
    simp [cause, named, eq_comm]
  · rename_i color
    obtain ⟨operator, same⟩ := cause
    simp [same, color]
  · rename_i mismatch
    obtain ⟨operator, same⟩ := cause
    simp [same, mismatch]
  · rename_i unscaled
    obtain ⟨operator, same⟩ := cause
    simp [same, unscaled]
  · exact cause.elim

theorem foretells_of_violation {operator : Operator} {lhs rhs : ValueType} {fault : Fault}
    (violated : operator.violation? lhs rhs = some fault) (position : Position) :
    Foretells ⟨fault, position⟩ ⟨.incompatibleOperands operator.symbol, position⟩ := by
  refine ⟨rfl, ?_⟩
  unfold Operator.violation? at violated
  split at violated
  · cases violated
    exact ⟨_, rfl⟩
  · cases operator <;> dsimp only at violated <;> split at violated <;> cases violated <;>
      exact ⟨_, rfl⟩

namespace Expr

variable {values : Scopes Literal}

theorem agrees_of_fold_ok {expr : Expr} (unmarked : expr.diagnostics = []) {value : Literal}
    (done : expr.fold values = .ok value) :
    expr.typeIn (values.map Literal.type) = value.type ∧
      (expr.check (values.map Literal.type)).diagnostics = [] := by
  induction expr generalizing value with
  | literal literal span =>
      cases done
      exact ⟨rfl, rfl⟩
  | reference name span before =>
      have unmarked : before = none := Option.toList_eq_nil_iff.mp unmarked
      unfold fold at done
      split at done
      · rename_i bound found
        cases done
        have resolved : (values.map Literal.type).resolve? name = some value.type := by
          rw [Scopes.resolve?_map, found]
          rfl
        have isBound : (values.map Literal.type).isBound name = true := by
          rw [Scopes.isBound, resolved]
          rfl
        constructor
        · rw [typeIn, resolved]
          rfl
        · simp [check, isBound, annotate, diagnostics, unmarked]
      · cases done
  | operation operator lhs rhs span before ihl ihr =>
      simp only [diagnostics, List.append_eq_nil_iff, Option.toList_eq_nil_iff] at unmarked
      obtain ⟨⟨leftUnmarked, rightUnmarked⟩, unmarked⟩ := unmarked
      obtain ⟨left, leftDone, done⟩ := ok_of_bind done
      obtain ⟨right, rightDone, done⟩ := ok_of_bind done
      obtain ⟨leftType, leftClean⟩ := ihl leftUnmarked leftDone
      obtain ⟨rightType, rightClean⟩ := ihr rightUnmarked rightDone
      split at done
      · rename_i result computed
        cases done
        have valid : operator.violation? left.type right.type = none :=
          Operator.violation?_eq_none_iff.mpr (by rw [computed]; rfl)
        constructor
        · rw [typeIn, leftType, rightType, Operator.resultType_of_value? computed]
        · simp [check, diagnostics, leftClean, rightClean, leftType, rightType, valid, annotate,
            unmarked]
      · cases done

theorem foretold_of_fold_error {expr : Expr} (unmarked : expr.diagnostics = [])
    {stopped : Diagnostic} (stuck : expr.fold values = .error stopped) :
    ∃ first rest, (expr.check (values.map Literal.type)).diagnostics = first :: rest ∧
      Foretells first stopped := by
  induction expr with
  | literal literal span => cases stuck
  | reference name span before =>
      unfold fold at stuck
      split at stuck
      · cases stuck
      · rename_i missing
        cases stuck
        have unbound : (values.map Literal.type).isBound name = false := by
          rw [Scopes.isBound, Scopes.resolve?_map, missing]
          rfl
        refine ⟨⟨.undefinedVariable name, span.start⟩, [], ?_, rfl, rfl⟩
        simp [check, unbound, annotate, diagnostics]
  | operation operator lhs rhs span before ihl ihr =>
      simp only [diagnostics, List.append_eq_nil_iff] at unmarked
      obtain ⟨⟨leftUnmarked, rightUnmarked⟩, _⟩ := unmarked
      rcases error_of_bind stuck with leftStuck | ⟨left, leftDone, stuck⟩
      · obtain ⟨first, rest, attached, foretold⟩ := ihl leftUnmarked leftStuck
        exact ⟨first, _, by rw [check, diagnostics, attached]; rfl, foretold⟩
      obtain ⟨leftType, leftClean⟩ := agrees_of_fold_ok leftUnmarked leftDone
      rcases error_of_bind stuck with rightStuck | ⟨right, rightDone, stuck⟩
      · obtain ⟨first, rest, attached, foretold⟩ := ihr rightUnmarked rightStuck
        exact ⟨first, _, by rw [check, diagnostics, leftClean, attached]; rfl, foretold⟩
      obtain ⟨rightType, rightClean⟩ := agrees_of_fold_ok rightUnmarked rightDone
      split at stuck
      · cases stuck
      · rename_i incompatible
        cases stuck
        obtain ⟨fault, violated⟩ := Operator.violation?_of_value?_none incompatible
        refine ⟨⟨fault, span.start⟩, [], ?_, foretells_of_violation violated _⟩
        simp [check, diagnostics, leftClean, rightClean, leftType, rightType, violated, annotate]

end Expr

namespace Declaration

variable {values : Scopes Literal}

def Admitted (declared : Declaration) : Prop :=
  ∃ value span, declared.value = .literal value span ∧ value.type ∈ declared.property.allowed

theorem admitted_withValue {declared : Declaration} {value : Literal} :
    (declared.withValue value).Admitted ↔ declared.property.allows value.type = true := by
  rw [Property.allows_iff]
  constructor
  · rintro ⟨_, _, same, allowed⟩
    cases same
    exact allowed
  · intro allowed
    exact ⟨value, declared.value.span, rfl, allowed⟩

theorem agrees_of_fold_ok {declared : Declaration} (unmarked : declared.diagnostics = [])
    {value : Literal} (done : declared.value.fold values = .ok value) :
    ((declared.check (values.map Literal.type)).diagnostics = [] ↔
        (declared.withValue value).Admitted) ∧
      ∀ diagnostic ∈ (declared.check (values.map Literal.type)).diagnostics,
        diagnostic.isTypeNotAllowed = true := by
  obtain ⟨valueUnmarked, unmarked⟩ := List.append_eq_nil_iff.mp unmarked
  have unmarked : declared.diagnostic = none := Option.toList_eq_nil_iff.mp unmarked
  obtain ⟨type, clean⟩ := Expr.agrees_of_fold_ok valueUnmarked done
  rw [admitted_withValue]
  by_cases allowed : declared.property.allows value.type = true
  · simp [check, diagnostics, clean, type, allowed, annotate, unmarked]
  · simp [check, diagnostics, clean, type, allowed, annotate, Diagnostic.isTypeNotAllowed]

end Declaration

def exprFaults (diagnostics : List Diagnostic) : List Diagnostic :=
  diagnostics.filter fun diagnostic => !diagnostic.isTypeNotAllowed

theorem find?_eq_head?_exprFaults (diagnostics : List Diagnostic) :
    diagnostics.find? (fun diagnostic => !diagnostic.isTypeNotAllowed) =
      (exprFaults diagnostics).head? :=
  List.head?_filter.symm

theorem exprFaults_append (front back : List Diagnostic) :
    exprFaults (front ++ back) = exprFaults front ++ exprFaults back :=
  List.filter_append front back

theorem exprFaults_eq_nil {diagnostics : List Diagnostic}
    (declared : ∀ diagnostic ∈ diagnostics, diagnostic.isTypeNotAllowed = true) :
    exprFaults diagnostics = [] := by
  apply List.filter_eq_nil_iff.mpr
  intro diagnostic member
  simp [declared diagnostic member]

theorem exprFaults_of_foretold {diagnostics : List Diagnostic} {stopped : Diagnostic}
    (foretold : ∃ first rest, diagnostics = first :: rest ∧ Foretells first stopped)
    (later : List Diagnostic) :
    ∃ first rest, exprFaults (diagnostics ++ later) = first :: rest ∧ Foretells first stopped := by
  obtain ⟨first, rest, rfl, foretold⟩ := foretold
  refine ⟨first, exprFaults (rest ++ later), ?_, foretold⟩
  rw [List.cons_append, exprFaults, List.filter_cons_of_pos (by simp [foretold.not_typeNotAllowed])]
  rfl

namespace Body

variable {values : Scopes Literal}

-- The scopes that both passes leave still agree, which is what the items after the body need.
theorem agrees_of_folded_ok {body : Body} (unmarked : body.diagnostics = [])
    {after : Scopes Literal} {result : Body} (done : body.folded values = .ok (after, result)) :
    body.typesAfter (values.map Literal.type) = after.map Literal.type ∧
      exprFaults (body.check (values.map Literal.type)).diagnostics = [] ∧
      ((body.check (values.map Literal.type)).diagnostics = [] ↔
        ∀ declared ∈ result.declarations, declared.Admitted) := by
  induction body generalizing values after result with
  | empty =>
      rw [folded_empty] at done
      cases done
      exact ⟨rfl, rfl, by simp [diagnostics, declarations]⟩
  | declaration declared later ih =>
      obtain ⟨hereUnmarked, thereUnmarked⟩ := List.append_eq_nil_iff.mp unmarked
      rw [folded_declaration] at done
      obtain ⟨value, here, done⟩ := ok_of_bind done
      obtain ⟨⟨_, rest⟩, there, done⟩ := ok_of_bind done
      cases done
      obtain ⟨hereClean, hereFaults⟩ := Declaration.agrees_of_fold_ok hereUnmarked here
      obtain ⟨scopes, thereFaults, thereClean⟩ := ih thereUnmarked there
      refine ⟨scopes, ?_, ?_⟩
      · rw [check_declaration, diagnostics, exprFaults_append, exprFaults_eq_nil hereFaults,
          thereFaults]
        rfl
      · rw [check_declaration, diagnostics, List.append_eq_nil_iff, hereClean, thereClean]
        simp [declarations]
  | assignment assigned later ih =>
      obtain ⟨hereUnmarked, thereUnmarked⟩ := List.append_eq_nil_iff.mp unmarked
      rw [folded_assignment] at done
      obtain ⟨value, here, done⟩ := ok_of_bind done
      obtain ⟨⟨_, rest⟩, there, done⟩ := ok_of_bind done
      cases done
      obtain ⟨type, hereClean⟩ := Expr.agrees_of_fold_ok hereUnmarked here
      obtain ⟨scopes, thereFaults, thereClean⟩ := ih thereUnmarked there
      rw [Scopes.map_bind, ← type] at scopes thereFaults thereClean
      refine ⟨scopes, ?_, ?_⟩
      · rw [check_assignment, diagnostics, Assignment.check, hereClean]
        exact thereFaults
      · rw [check_assignment, diagnostics, Assignment.check, hereClean]
        exact thereClean
  | rule selectors inner span later ihInner ihLater =>
      obtain ⟨insideUnmarked, thereUnmarked⟩ := List.append_eq_nil_iff.mp unmarked
      rw [folded_rule] at done
      obtain ⟨⟨leaving, innerRest⟩, inside, done⟩ := ok_of_bind done
      obtain ⟨⟨_, rest⟩, there, done⟩ := ok_of_bind done
      cases done
      obtain ⟨insideScopes, insideFaults, insideClean⟩ := ihInner insideUnmarked inside
      obtain ⟨scopes, thereFaults, thereClean⟩ := ihLater thereUnmarked there
      rw [Scopes.map_enterFor] at insideScopes insideFaults insideClean
      rw [Scopes.map_afterRule, ← insideScopes] at scopes thereFaults thereClean
      refine ⟨?_, ?_, ?_⟩
      · rw [typesAfter_rule]
        exact scopes
      · rw [check_rule, diagnostics, exprFaults_append, insideFaults]
        exact thereFaults
      · rw [check_rule, diagnostics, List.append_eq_nil_iff, insideClean, declarations]
        simp only [List.forall_mem_append]
        exact and_congr_right fun _ => thereClean

theorem foretold_of_folded_error {body : Body} (unmarked : body.diagnostics = [])
    {stopped : Diagnostic} (stuck : body.folded values = .error stopped) :
    ∃ first rest, exprFaults (body.check (values.map Literal.type)).diagnostics = first :: rest ∧
      Foretells first stopped := by
  induction body generalizing values with
  | empty => cases stuck
  | declaration declared later ih =>
      obtain ⟨hereUnmarked, thereUnmarked⟩ := List.append_eq_nil_iff.mp unmarked
      rw [folded_declaration] at stuck
      rw [check_declaration, diagnostics]
      rcases error_of_bind stuck with here | ⟨value, here, stuck⟩
      · have foretold := Expr.foretold_of_fold_error (List.append_eq_nil_iff.mp hereUnmarked).1 here
        rw [Declaration.diagnostics, List.append_assoc]
        exact exprFaults_of_foretold foretold _
      rcases error_of_bind stuck with there | ⟨_, _, absent⟩
      · have faults := (Declaration.agrees_of_fold_ok hereUnmarked here).2
        rw [exprFaults_append, exprFaults_eq_nil faults]
        exact ih thereUnmarked there
      · cases absent
  | assignment assigned later ih =>
      obtain ⟨hereUnmarked, thereUnmarked⟩ := List.append_eq_nil_iff.mp unmarked
      rw [folded_assignment] at stuck
      rw [check_assignment, diagnostics]
      rcases error_of_bind stuck with here | ⟨value, here, stuck⟩
      · exact exprFaults_of_foretold (Expr.foretold_of_fold_error hereUnmarked here) _
      rcases error_of_bind stuck with there | ⟨_, _, absent⟩
      · obtain ⟨type, clean⟩ := Expr.agrees_of_fold_ok hereUnmarked here
        have foretold := ih thereUnmarked there
        rw [Scopes.map_bind, ← type] at foretold
        rw [Assignment.check, clean]
        exact foretold
      · cases absent
  | rule selectors inner span later ihInner ihLater =>
      obtain ⟨insideUnmarked, thereUnmarked⟩ := List.append_eq_nil_iff.mp unmarked
      rw [folded_rule] at stuck
      rw [check_rule, diagnostics, exprFaults_append]
      rcases error_of_bind stuck with inside | ⟨⟨leaving, innerRest⟩, inside, stuck⟩
      · obtain ⟨first, rest, attached, foretold⟩ := ihInner insideUnmarked inside
        rw [Scopes.map_enterFor] at attached
        exact ⟨first, _, by rw [attached]; rfl, foretold⟩
      rcases error_of_bind stuck with there | ⟨_, _, absent⟩
      · obtain ⟨insideScopes, insideFaults, _⟩ := agrees_of_folded_ok insideUnmarked inside
        have foretold := ihLater thereUnmarked there
        rw [Scopes.map_enterFor] at insideScopes insideFaults
        rw [Scopes.map_afterRule, ← insideScopes] at foretold
        rw [insideFaults]
        exact foretold
      · cases absent

end Body

theorem Sheet.evaluate_eq (sheet : Sheet) :
    sheet.evaluate = (sheet.body.folded .initial).map fun (_, body) => { sheet with body } := by
  rw [evaluate, Body.evaluate_eq]
  cases sheet.body.folded .initial <;> rfl

theorem Sheet.body_of_evaluate {sheet evaluated : Sheet} (done : sheet.evaluate = .ok evaluated) :
    ∃ after body, sheet.body.folded .initial = .ok (after, body) ∧
      evaluated = { sheet with body } := by
  rw [evaluate_eq] at done
  cases folded : sheet.body.folded .initial with
  | error failure =>
      rw [folded] at done
      cases done
  | ok result =>
      rw [folded] at done
      cases done
      exact ⟨result.1, result.2, rfl, rfl⟩

theorem Sheet.isClean_iff (sheet : Sheet) : sheet.isClean = true ↔ sheet.diagnostics = [] :=
  List.isEmpty_iff

/-- Checking is sound and complete for evaluation. -/
theorem Sheet.check_isClean_iff (sheet : Sheet) (unmarked : sheet.diagnostics = []) :
    sheet.check.isClean = true ↔
      ∃ evaluated, sheet.evaluate = .ok evaluated ∧
        ∀ declared ∈ evaluated.body.declarations, declared.Admitted := by
  rw [isClean_iff, evaluate_eq]
  cases folded : sheet.body.folded .initial with
  | error stopped =>
      obtain ⟨first, rest, attached, _⟩ := Body.foretold_of_folded_error unmarked folded
      constructor
      · intro clean
        have clean : (sheet.body.check .initial).diagnostics = [] := clean
        rw [Scopes.map_initial, clean] at attached
        cases attached
      · rintro ⟨_, absent, _⟩
        cases absent
  | ok outcome =>
      obtain ⟨after, result⟩ := outcome
      obtain ⟨_, _, agrees⟩ := Body.agrees_of_folded_ok unmarked folded
      rw [Scopes.map_initial] at agrees
      constructor
      · intro clean
        exact ⟨{ sheet with body := result }, rfl, agrees.mp clean⟩
      · rintro ⟨evaluated, same, admitted⟩
        cases same
        exact agrees.mpr admitted

def Sheet.scaledWidth : Sheet where
  body :=
    .assignment ⟨"@n", .literal (.scalar 3) .null, .null⟩ <|
    .rule [.tag "p"]
      (.rule [] (.assignment ⟨"@w", .literal (.pixel 4) .null, .null⟩ .empty) .null <|
       .declaration ⟨.width, .operation .multiply (.reference "@n" .null none)
         (.reference "@w" .null none) .null none, .null, none⟩ .empty) .null .empty
  span := .null

/-- A variable of the sheet, one that a rule without selectors adds to the rule around it, and a
product of the two. -/
theorem Sheet.scaledWidth_evaluates :
    scaledWidth.diagnostics = [] ∧ scaledWidth.check.isClean = true ∧
      ∃ evaluated, scaledWidth.evaluate = .ok evaluated ∧
        ∀ declared ∈ evaluated.body.declarations, declared.Admitted := by
  have clean : scaledWidth.check.isClean = true := by decide
  exact ⟨rfl, clean, (check_isClean_iff scaledWidth rfl).mp clean⟩

/-- Evaluation stops exactly if checking finds fault with an expression, and then at the first
expression that checking finds fault with, for the same cause. -/
theorem Sheet.evaluate_stops_iff (sheet : Sheet) (unmarked : sheet.diagnostics = []) :
    ((∃ stopped, sheet.evaluate = .error stopped) ↔
      ∃ checked, sheet.check.diagnostics.find? (fun diagnostic => !diagnostic.isTypeNotAllowed) =
        some checked) ∧
    ∀ stopped checked, sheet.evaluate = .error stopped →
      sheet.check.diagnostics.find? (fun diagnostic => !diagnostic.isTypeNotAllowed) =
        some checked →
      stopped.position = checked.position ∧
      (∀ name,
        stopped.fault = .unresolvedVariable name ↔ checked.fault = .undefinedVariable name) ∧
      ((∃ operator, stopped.fault = .incompatibleOperands operator) ↔
        checked.fault = .colorInOperation ∨ checked.fault = .operandTypeMismatch ∨
          checked.fault = .missingScalarOperand) := by
  have checks : sheet.check.diagnostics = (sheet.body.check .initial).diagnostics := rfl
  rw [find?_eq_head?_exprFaults, evaluate_eq, checks]
  cases folded : sheet.body.folded .initial with
  | ok outcome =>
      obtain ⟨after, result⟩ := outcome
      obtain ⟨_, faultless, _⟩ := Body.agrees_of_folded_ok unmarked folded
      rw [Scopes.map_initial] at faultless
      rw [faultless]
      constructor
      · constructor <;> rintro ⟨_, absent⟩ <;> cases absent
      · intro stopped checked absent
        cases absent
  | error stop =>
      obtain ⟨first, rest, attached, foretold⟩ := Body.foretold_of_folded_error unmarked folded
      rw [Scopes.map_initial] at attached
      rw [attached]
      constructor
      · exact ⟨fun _ => ⟨first, rfl⟩, fun _ => ⟨stop, rfl⟩⟩
      · intro stopped checked here there
        cases here
        cases there
        exact ⟨foretold.1.symm, foretold.causes⟩

def Sheet.colorSum : Sheet where
  body :=
    .rule [.tag "p"]
      (.declaration ⟨.width, .literal (.scalar 3) .null, .null, none⟩ <|
       .declaration ⟨.height, .operation .add (.literal (.color "red") .null)
         (.literal (.pixel 1) .null) (.ofBytes 20 29 "a") none, .null, none⟩ <|
       .declaration ⟨.height, .reference "@h" .null none, .null, none⟩ .empty) .null .empty
  span := .null

/-- A width of the wrong type, a sum of a color, and a variable that is not bound. -/
theorem Sheet.colorSum_stops :
    colorSum.diagnostics = [] ∧
    colorSum.check.diagnostics.length = 5 ∧
    ∃ stopped, colorSum.evaluate = .error stopped ∧
      stopped.position = Position.ofBytes 20 "a" ∧
      ∃ operator, stopped.fault = .incompatibleOperands operator := by
  have first : colorSum.check.diagnostics.find? (fun diagnostic => !diagnostic.isTypeNotAllowed) =
      some ⟨.colorInOperation, Position.ofBytes 20 "a"⟩ := by decide
  obtain ⟨stops, agree⟩ := evaluate_stops_iff colorSum rfl
  obtain ⟨stopped, evaluated⟩ := stops.mpr ⟨_, first⟩
  obtain ⟨position, _, cause⟩ := agree stopped _ evaluated first
  exact ⟨rfl, by decide, stopped, evaluated, position, cause.mpr (Or.inl rfl)⟩

end TypedStyle
