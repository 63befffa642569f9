import TypedStyle.Proofs.Checking

/-!
Checking only annotates. Without their diagnostics, a sheet and the checked sheet are equal. The
nodes that can carry a diagnostic are listed in document order, and what checking writes to them
does not depend on what they carried before. So checking a checked sheet changes nothing.
-/

namespace TypedStyle

def Expr.unmarked : Expr → Expr
  | .literal value span => .literal value span
  | .reference name span _ => .reference name span none
  | .operation operator lhs rhs span _ => .operation operator lhs.unmarked rhs.unmarked span none

def Declaration.unmarked (declared : Declaration) : Declaration :=
  { declared with value := declared.value.unmarked, diagnostic := none }

def Assignment.unmarked (assigned : Assignment) : Assignment :=
  { assigned with value := assigned.value.unmarked }

def Body.unmarked : Body → Body
  | .empty => .empty
  | .declaration declared later => .declaration declared.unmarked later.unmarked
  | .assignment assigned later => .assignment assigned.unmarked later.unmarked
  | .rule selectors inner span later => .rule selectors inner.unmarked span later.unmarked

def Sheet.unmarked (sheet : Sheet) : Sheet := { sheet with body := sheet.body.unmarked }

/-! ### What the nodes carry

One entry for each node that can carry a diagnostic, in the order of `diagnostics`. -/

def Expr.marks : Expr → List (Option Diagnostic)
  | .literal _ _ => []
  | .reference _ _ diagnostic => [diagnostic]
  | .operation _ lhs rhs _ diagnostic => lhs.marks ++ rhs.marks ++ [diagnostic]

def Declaration.marks (declared : Declaration) : List (Option Diagnostic) :=
  declared.value.marks ++ [declared.diagnostic]

def Body.marks : Body → List (Option Diagnostic)
  | .empty => []
  | .declaration declared later => declared.marks ++ later.marks
  | .assignment assigned later => assigned.value.marks ++ later.marks
  | .rule _ inner _ later => inner.marks ++ later.marks

def Sheet.marks (sheet : Sheet) : List (Option Diagnostic) := sheet.body.marks

/-! ### What checking writes

One entry for each node that can carry a diagnostic: the diagnostic that checking attaches to it,
if the node breaks a rule. -/

def Expr.written (scopes : Scopes ValueType) : Expr → List (Option Diagnostic)
  | .literal _ _ => []
  | .reference name span _ =>
      let violation? := if scopes.isBound name then none else some (.undefinedVariable name)
      [annotate violation? span none]
  | .operation operator lhs rhs span _ =>
      let violation? := operator.violation? (lhs.typeIn scopes) (rhs.typeIn scopes)
      lhs.written scopes ++ rhs.written scopes ++ [annotate violation? span none]

def Declaration.written (scopes : Scopes ValueType) (declared : Declaration) :
    List (Option Diagnostic) :=
  let type := declared.value.typeIn scopes
  let violation? :=
    if declared.property.allows type then none
    else some (.typeNotAllowed type declared.property.name)
  declared.value.written scopes ++ [annotate violation? declared.span none]

def Body.written (scopes : Scopes ValueType) : Body → List (Option Diagnostic)
  | .empty => []
  | .declaration declared later => declared.written scopes ++ later.written scopes
  | .assignment assigned later =>
      assigned.value.written scopes ++
        later.written (scopes.bind assigned.name (assigned.value.typeIn scopes))
  | .rule selectors inner _ later =>
      inner.written (scopes.enterFor selectors) ++
        later.written (typesAfterRule scopes selectors inner)

def Sheet.written (sheet : Sheet) : List (Option Diagnostic) := sheet.body.written .initial

namespace Expr

variable (scopes : Scopes ValueType)

@[simp] theorem typeIn_unmarked (expr : Expr) :
    expr.unmarked.typeIn scopes = expr.typeIn scopes := by
  induction expr with
  | literal value span => rfl
  | reference name span before => rfl
  | operation operator lhs rhs span before ihl ihr => simp only [unmarked, typeIn, ihl, ihr]

@[simp] theorem unmarked_check (expr : Expr) : (expr.check scopes).unmarked = expr.unmarked := by
  induction expr with
  | literal value span => rfl
  | reference name span before => rfl
  | operation operator lhs rhs span before ihl ihr => simp only [check, unmarked, ihl, ihr]

@[simp] theorem written_unmarked (expr : Expr) :
    expr.unmarked.written scopes = expr.written scopes := by
  induction expr with
  | literal value span => rfl
  | reference name span before => rfl
  | operation operator lhs rhs span before ihl ihr =>
      simp only [unmarked, written, typeIn_unmarked, ihl, ihr]

theorem typeIn_check (expr : Expr) : (expr.check scopes).typeIn scopes = expr.typeIn scopes := by
  rw [← typeIn_unmarked, unmarked_check, typeIn_unmarked]

end Expr

namespace Declaration

variable (scopes : Scopes ValueType)

@[simp] theorem unmarked_check (declared : Declaration) :
    (declared.check scopes).unmarked = declared.unmarked := by
  simp only [check, unmarked, Expr.unmarked_check]

@[simp] theorem written_unmarked (declared : Declaration) :
    declared.unmarked.written scopes = declared.written scopes := by
  simp only [unmarked, written, Expr.typeIn_unmarked, Expr.written_unmarked]

end Declaration

namespace Body

@[simp] theorem typesAfter_unmarked (scopes : Scopes ValueType) (body : Body) :
    body.unmarked.typesAfter scopes = body.typesAfter scopes := by
  induction body generalizing scopes with
  | empty => rfl
  | declaration declared later ih => simp only [unmarked, typesAfter_declaration, ih]
  | assignment assigned later ih =>
      simp only [unmarked, Assignment.unmarked, typesAfter_assignment, Expr.typeIn_unmarked, ih]
  | rule selectors inner span later ihInner ihLater =>
      simp only [unmarked, typesAfter_rule, typesAfterRule, ihInner, ihLater]

@[simp] theorem unmarked_check (scopes : Scopes ValueType) (body : Body) :
    (body.check scopes).unmarked = body.unmarked := by
  induction body generalizing scopes with
  | empty => rfl
  | declaration declared later ih =>
      simp only [check_declaration, unmarked, Declaration.unmarked_check, ih]
  | assignment assigned later ih =>
      simp only [check_assignment, unmarked, Assignment.check, Assignment.unmarked,
        Expr.unmarked_check, ih]
  | rule selectors inner span later ihInner ihLater =>
      simp only [check_rule, unmarked, ihInner, ihLater]

theorem typesAfter_check (scopes : Scopes ValueType) (body : Body) :
    (body.check scopes).typesAfter scopes = body.typesAfter scopes := by
  rw [← typesAfter_unmarked, unmarked_check, typesAfter_unmarked]

@[simp] theorem written_unmarked (scopes : Scopes ValueType) (body : Body) :
    body.unmarked.written scopes = body.written scopes := by
  induction body generalizing scopes with
  | empty => rfl
  | declaration declared later ih =>
      simp only [unmarked, written, Declaration.written_unmarked, ih]
  | assignment assigned later ih =>
      simp only [unmarked, written, Assignment.unmarked, Expr.written_unmarked,
        Expr.typeIn_unmarked, ih]
  | rule selectors inner span later ihInner ihLater =>
      simp only [unmarked, written, typesAfterRule, typesAfter_unmarked, ihInner, ihLater]

end Body

theorem annotate_eq_or (violation? : Option Fault) (span : Span) (before : Option Diagnostic) :
    annotate violation? span before = (annotate violation? span none).or before := by
  cases violation? <;> rfl

theorem annotate_annotate (violation? : Option Fault) (span : Span) (before : Option Diagnostic) :
    annotate violation? span (annotate violation? span before) =
      annotate violation? span before := by
  cases violation? <;> rfl

/-- The nodes carry what was written to them, or else what they carried before. -/
structure Overwrites (written before after : List (Option Diagnostic)) : Prop where
  counted : written.length = before.length
  carried : after = List.zipWith Option.or written before

namespace Overwrites

theorem nil : Overwrites [] [] [] := ⟨rfl, rfl⟩

theorem one (violation? : Option Fault) (span : Span) (before : Option Diagnostic) :
    Overwrites [annotate violation? span none] [before] [annotate violation? span before] :=
  ⟨rfl, by rw [annotate_eq_or]; rfl⟩

theorem append {written before after others rest more : List (Option Diagnostic)}
    (here : Overwrites written before after) (there : Overwrites others rest more) :
    Overwrites (written ++ others) (before ++ rest) (after ++ more) where
  counted := by rw [List.length_append, List.length_append, here.counted, there.counted]
  carried := by rw [List.zipWith_append here.counted, ← here.carried, ← there.carried]

end Overwrites

theorem Expr.overwrites_check (scopes : Scopes ValueType) (expr : Expr) :
    Overwrites (expr.written scopes) expr.marks (expr.check scopes).marks := by
  induction expr with
  | literal value span => exact .nil
  | reference name span before => exact .one _ span before
  | operation operator lhs rhs span before ihl ihr =>
      exact (ihl.append ihr).append (.one _ span before)

theorem Declaration.overwrites_check (scopes : Scopes ValueType) (declared : Declaration) :
    Overwrites (declared.written scopes) declared.marks (declared.check scopes).marks :=
  (declared.value.overwrites_check scopes).append (.one _ declared.span declared.diagnostic)

theorem Body.overwrites_check (scopes : Scopes ValueType) (body : Body) :
    Overwrites (body.written scopes) body.marks (body.check scopes).marks := by
  induction body generalizing scopes with
  | empty => exact .nil
  | declaration declared later ih => exact (declared.overwrites_check scopes).append (ih scopes)
  | assignment assigned later ih => exact (assigned.value.overwrites_check scopes).append (ih _)
  | rule selectors inner span later ihInner ihLater =>
      rw [check_rule]
      exact (ihInner _).append (ihLater _)

theorem Expr.check_check (scopes : Scopes ValueType) (expr : Expr) :
    (expr.check scopes).check scopes = expr.check scopes := by
  induction expr with
  | literal value span => rfl
  | reference name span before => simp only [check, annotate_annotate]
  | operation operator lhs rhs span before ihl ihr =>
      simp only [check, typeIn_check, ihl, ihr, annotate_annotate]

theorem Declaration.check_check (scopes : Scopes ValueType) (declared : Declaration) :
    (declared.check scopes).check scopes = declared.check scopes := by
  simp only [check, Expr.typeIn_check, Expr.check_check, annotate_annotate]

theorem Body.check_check (scopes : Scopes ValueType) (body : Body) :
    (body.check scopes).check scopes = body.check scopes := by
  induction body generalizing scopes with
  | empty => rfl
  | declaration declared later ih =>
      simp only [check_declaration, Declaration.check_check, ih]
  | assignment assigned later ih =>
      simp only [check_assignment, Assignment.check, Expr.typeIn_check, Expr.check_check, ih]
  | rule selectors inner span later ihInner ihLater =>
      simp only [check_rule, typesAfterRule, typesAfter_check, ihInner, ihLater]

namespace Sheet

/-- Checking changes nothing but diagnostics, and checking again changes nothing. It leaves at each
node what it writes there, if anything, and what it writes is the same for all sheets that are
equal without their diagnostics. -/
theorem check_annotates (sheet : Sheet) :
    sheet.check.unmarked = sheet.unmarked ∧ sheet.check.check = sheet.check ∧
    Overwrites sheet.written sheet.marks sheet.check.marks ∧
    ∀ other : Sheet, other.unmarked = sheet.unmarked → other.written = sheet.written := by
  refine ⟨?_, ?_, sheet.body.overwrites_check .initial, ?_⟩
  · simp only [unmarked, check, Body.unmarked_check]
  · simp only [check, Body.check_check]
  · intro other same
    have bodies : other.body.unmarked = sheet.body.unmarked := congrArg Sheet.body same
    rw [written, ← Body.written_unmarked, bodies, Body.written_unmarked, written]

def staleSum : Sheet where
  body :=
    .assignment ⟨"@w", .literal (.pixel 1) .null, .null⟩ <|
    .rule [.byClass "a"]
      (.declaration ⟨.color, .operation .add
        (.reference "@w" .null (some ⟨.undefinedVariable "@w", .null⟩)) (.reference "@v" .null none)
        .null (some ⟨.colorInOperation, .null⟩), .null, none⟩ .empty) .null .empty
  span := .null

/-- An older diagnostic on a name that is bound, which stays, and one on a sum that breaks another
rule, which is replaced. -/
theorem check_annotates_staleSum :
    staleSum.unmarked.written = staleSum.written ∧
    staleSum.check.marks =
      [some ⟨.undefinedVariable "@w", .null⟩, some ⟨.undefinedVariable "@v", .null⟩,
        some ⟨.operandTypeMismatch, .null⟩, some ⟨.typeNotAllowed .pixel "color", .null⟩] := by
  obtain ⟨_, _, overwrites, same⟩ := check_annotates staleSum
  exact ⟨same staleSum.unmarked rfl, overwrites.carried.trans (by decide)⟩

end Sheet

end TypedStyle
