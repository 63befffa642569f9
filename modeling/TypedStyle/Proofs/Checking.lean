import TypedStyle.Proofs.Scoping
import TypedStyle.Typing

/-!
Checking item by item. Checking never stops, so the checked body is given by one equation for each
kind of item. From these it follows that checking attaches nothing but faults of its own, and that
a body without diagnostics after checking is the body as it was before.
-/

namespace TypedStyle

/-- The part of compilation that reports a fault. The last part reports only what checking has
already ruled out. -/
inductive Stage where
  | splitting
  | reading
  | checking
  | folding
  deriving DecidableEq

def Fault.stage : Fault → Stage
  | .unrecognisedToken _ => .splitting
  | .unexpectedToken _ | .unreadableNumber _ | .unknownProperty _ | .invalidColor _ => .reading
  | .undefinedVariable _ | .colorInOperation | .operandTypeMismatch | .missingScalarOperand
  | .typeNotAllowed _ _ => .checking
  | .unresolvedVariable _ | .incompatibleOperands _ | .unevaluatedExpression => .folding

theorem Pass.typing_bindsInnermost : Pass.typing.BindsInnermost where
  assignment _ _ _ := rfl
  declaration _ _ _ := rfl

namespace Body

def typesAfter (scopes : Scopes ValueType) (body : Body) : Scopes ValueType :=
  (Pass.typing.walk scopes () body).scopes

theorem typing_walk (scopes : Scopes ValueType) (body : Body) :
    Pass.typing.walk scopes () body = ⟨body.typesAfter scopes, (), body.check scopes, none⟩ := by
  have unfailing : (Pass.typing.walk scopes () body).failure? = none := by
    cases (Pass.typing.walk scopes () body).failure? with
    | none => rfl
    | some impossible => exact impossible.elim
  rw [typesAfter, check, ← unfailing]

variable (scopes : Scopes ValueType)

@[simp] theorem check_empty : empty.check scopes = empty := rfl

@[simp] theorem typesAfter_empty : empty.typesAfter scopes = scopes := rfl

@[simp] theorem check_declaration (declared : Declaration) (later : Body) :
    (declaration declared later).check scopes =
      declaration (declared.check scopes) (later.check scopes) := rfl

@[simp] theorem typesAfter_declaration (declared : Declaration) (later : Body) :
    (declaration declared later).typesAfter scopes = later.typesAfter scopes := rfl

@[simp] theorem check_assignment (assigned : Assignment) (later : Body) :
    (assignment assigned later).check scopes =
      assignment (assigned.check scopes)
        (later.check (scopes.bind assigned.name (assigned.value.typeIn scopes))) := rfl

@[simp] theorem typesAfter_assignment (assigned : Assignment) (later : Body) :
    (assignment assigned later).typesAfter scopes =
      later.typesAfter (scopes.bind assigned.name (assigned.value.typeIn scopes)) := rfl

def typesAfterRule (selectors : List Selector) (inner : Body) : Scopes ValueType :=
  scopes.afterRule selectors (inner.typesAfter (scopes.enterFor selectors))

theorem typing_walk_rule (selectors : List Selector) (inner : Body) (span : Span) (later : Body) :
    Pass.typing.walk scopes () (rule selectors inner span later) =
      ⟨later.typesAfter (typesAfterRule scopes selectors inner), (),
        rule selectors (inner.check (scopes.enterFor selectors)) span
          (later.check (typesAfterRule scopes selectors inner)), none⟩ := by
  rw [Pass.walk_rule Pass.typing_bindsInnermost, typing_walk]
  simp only [Visit.andLater, typing_walk, Visit.map, typesAfterRule]

@[simp] theorem check_rule (selectors : List Selector) (inner : Body) (span : Span)
    (later : Body) :
    (rule selectors inner span later).check scopes =
      rule selectors (inner.check (scopes.enterFor selectors)) span
        (later.check (typesAfterRule scopes selectors inner)) := by
  rw [check, typing_walk_rule]

@[simp] theorem typesAfter_rule (selectors : List Selector) (inner : Body) (span : Span)
    (later : Body) :
    (rule selectors inner span later).typesAfter scopes =
      later.typesAfter (typesAfterRule scopes selectors inner) := by
  rw [typesAfter, typing_walk_rule]

end Body

theorem annotate_eq_none {violation? : Option Fault} {span : Span} {before : Option Diagnostic} :
    annotate violation? span before = none ↔ violation? = none ∧ before = none := by
  cases violation? <;> simp [annotate]

theorem mem_annotate {violation? : Option Fault} {span : Span} {before : Option Diagnostic}
    {diagnostic : Diagnostic} (attached : diagnostic ∈ (annotate violation? span before).toList) :
    diagnostic ∈ before.toList ∨ ∃ fault, violation? = some fault ∧ diagnostic.fault = fault := by
  cases violation? with
  | none => exact Or.inl attached
  | some fault =>
      have same : diagnostic = ⟨fault, span.start⟩ := by simpa [annotate] using attached
      exact Or.inr ⟨fault, rfl, by rw [same]⟩

theorem Property.allows_iff {property : Property} {type : ValueType} :
    property.allows type = true ↔ type ∈ property.allowed :=
  List.contains_iff_mem

theorem Operator.violation?_stage {operator : Operator} {lhs rhs : ValueType} {fault : Fault}
    (violated : operator.violation? lhs rhs = some fault) : fault.stage = .checking := by
  unfold violation? at violated
  split at violated
  · cases violated
    rfl
  · cases operator <;> dsimp only at violated <;> split at violated <;> cases violated <;> rfl

theorem Expr.mem_check_diagnostics {scopes : Scopes ValueType} {expr : Expr}
    {diagnostic : Diagnostic} (attached : diagnostic ∈ (expr.check scopes).diagnostics) :
    diagnostic ∈ expr.diagnostics ∨ diagnostic.fault.stage = .checking := by
  induction expr with
  | literal value span => cases attached
  | reference name span before =>
      rcases mem_annotate attached with kept | ⟨fault, violated, here⟩
      · exact Or.inl kept
      · split at violated <;> cases violated
        exact Or.inr (by rw [here]; rfl)
  | operation operator lhs rhs span before ihl ihr =>
      simp only [check, diagnostics, List.mem_append] at attached ⊢
      rcases attached with (inLhs | inRhs) | here
      · exact (ihl inLhs).imp_left fun kept => Or.inl (Or.inl kept)
      · exact (ihr inRhs).imp_left fun kept => Or.inl (Or.inr kept)
      · rcases mem_annotate here with kept | ⟨fault, violated, here⟩
        · exact Or.inl (Or.inr kept)
        · exact Or.inr (here ▸ Operator.violation?_stage violated)

theorem Declaration.mem_check_diagnostics {scopes : Scopes ValueType} {declared : Declaration}
    {diagnostic : Diagnostic} (attached : diagnostic ∈ (declared.check scopes).diagnostics) :
    diagnostic ∈ declared.diagnostics ∨ diagnostic.fault.stage = .checking := by
  simp only [Declaration.diagnostics, List.mem_append] at attached ⊢
  rcases attached with inValue | here
  · exact (Expr.mem_check_diagnostics inValue).imp_left Or.inl
  · rcases mem_annotate here with kept | ⟨fault, violated, here⟩
    · exact Or.inl (Or.inr kept)
    · split at violated <;> cases violated
      exact Or.inr (by rw [here]; rfl)

theorem Body.mem_check_diagnostics {scopes : Scopes ValueType} {body : Body}
    {diagnostic : Diagnostic} (attached : diagnostic ∈ (body.check scopes).diagnostics) :
    diagnostic ∈ body.diagnostics ∨ diagnostic.fault.stage = .checking := by
  induction body generalizing scopes with
  | empty => cases attached
  | declaration declared later ih =>
      simp only [check_declaration, diagnostics, List.mem_append] at attached ⊢
      rcases attached with here | there
      · exact (Declaration.mem_check_diagnostics here).imp_left Or.inl
      · exact (ih there).imp_left Or.inr
  | assignment assigned later ih =>
      simp only [check_assignment, diagnostics, List.mem_append] at attached ⊢
      rcases attached with here | there
      · exact (Expr.mem_check_diagnostics here).imp_left Or.inl
      · exact (ih there).imp_left Or.inr
  | rule selectors inner span later ihInner ihLater =>
      simp only [check_rule, diagnostics, List.mem_append] at attached ⊢
      rcases attached with inside | there
      · exact (ihInner inside).imp_left Or.inl
      · exact (ihLater there).imp_left Or.inr

theorem Expr.check_eq_self {scopes : Scopes ValueType} {expr : Expr}
    (clean : (expr.check scopes).diagnostics = []) : expr.check scopes = expr := by
  induction expr with
  | literal value span => rfl
  | reference name span before =>
      have unmarked := annotate_eq_none.mp (Option.toList_eq_nil_iff.mp clean)
      simp only [check, unmarked.1, annotate]
  | operation operator lhs rhs span before ihl ihr =>
      simp only [check, diagnostics, List.append_eq_nil_iff, Option.toList_eq_nil_iff] at clean
      obtain ⟨⟨inLhs, inRhs⟩, here⟩ := clean
      have unmarked := annotate_eq_none.mp here
      simp only [check, ihl inLhs, ihr inRhs, unmarked.1, annotate]

theorem Declaration.check_eq_self {scopes : Scopes ValueType} {declared : Declaration}
    (clean : (declared.check scopes).diagnostics = []) : declared.check scopes = declared := by
  obtain ⟨inValue, here⟩ := List.append_eq_nil_iff.mp clean
  have unmarked := annotate_eq_none.mp (Option.toList_eq_nil_iff.mp here)
  have value : declared.value.check scopes = declared.value := Expr.check_eq_self inValue
  simp only [check, value, unmarked.1, annotate]

theorem Body.check_eq_self {scopes : Scopes ValueType} {body : Body}
    (clean : (body.check scopes).diagnostics = []) : body.check scopes = body := by
  induction body generalizing scopes with
  | empty => rfl
  | declaration declared later ih =>
      rw [check_declaration] at clean ⊢
      obtain ⟨here, there⟩ := List.append_eq_nil_iff.mp clean
      rw [Declaration.check_eq_self here, ih there]
  | assignment assigned later ih =>
      rw [check_assignment] at clean ⊢
      obtain ⟨here, there⟩ := List.append_eq_nil_iff.mp clean
      have value : assigned.check scopes = assigned := by
        rw [Assignment.check, Expr.check_eq_self here]
      rw [value, ih there]
  | rule selectors inner span later ihInner ihLater =>
      rw [check_rule] at clean ⊢
      obtain ⟨inside, there⟩ := List.append_eq_nil_iff.mp clean
      rw [ihInner inside, ihLater there]

end TypedStyle
