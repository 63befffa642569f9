import TypedStyle.Compile
import TypedStyle.Proofs.Checking
import TypedStyle.Proofs.Folding

/-!
Sheets under other positions and other variable names. Every stage after reading carries positions
along without looking at them, and compares variables by name only. So a relabeled sheet is checked,
evaluated and written as the sheet is, with the labels changed in what is reported.
-/

namespace TypedStyle

structure Relabeling where
  place : Position → Position
  name : String → String

namespace Relabeling

/-- Different variables keep different names. -/
def Faithful (change : Relabeling) : Prop := Function.Injective change.name

def moving (place : Position → Position) : Relabeling := ⟨place, id⟩

theorem faithful_moving (place : Position → Position) : (moving place).Faithful :=
  fun _ _ same => same

end Relabeling

section Trees
variable (change : Relabeling)

def Span.relabel (span : Span) : Span := ⟨change.place span.start, change.place span.stop⟩

def Fault.relabel : Fault → Fault
  | .undefinedVariable name => .undefinedVariable (change.name name)
  | .unresolvedVariable name => .unresolvedVariable (change.name name)
  | fault => fault

def Diagnostic.relabel (diagnostic : Diagnostic) : Diagnostic :=
  ⟨diagnostic.fault.relabel change, change.place diagnostic.position⟩

def Expr.relabel : Expr → Expr
  | .literal value span => .literal value (span.relabel change)
  | .reference name span diagnostic =>
      .reference (change.name name) (span.relabel change)
        (diagnostic.map (Diagnostic.relabel change))
  | .operation operator lhs rhs span diagnostic =>
      .operation operator lhs.relabel rhs.relabel (span.relabel change)
        (diagnostic.map (Diagnostic.relabel change))

def Declaration.relabel (declared : Declaration) : Declaration where
  property := declared.property
  value := declared.value.relabel change
  span := declared.span.relabel change
  diagnostic := declared.diagnostic.map (Diagnostic.relabel change)

def Assignment.relabel (assigned : Assignment) : Assignment where
  name := change.name assigned.name
  value := assigned.value.relabel change
  span := assigned.span.relabel change

def Body.relabel : Body → Body
  | .empty => .empty
  | .declaration declared later => .declaration (declared.relabel change) later.relabel
  | .assignment assigned later => .assignment (assigned.relabel change) later.relabel
  | .rule selectors inner span later =>
      .rule selectors inner.relabel (span.relabel change) later.relabel

def Item.relabel : Item → Item
  | .declaration declared => .declaration (declared.relabel change)
  | .assignment assigned => .assignment (assigned.relabel change)
  | .rule selectors inner span =>
      .rule selectors (inner.relabel change) (span.relabel change)

theorem Body.relabel_cons (item : Item) (later : Body) :
    (Body.cons item later).relabel change =
      .cons (item.relabel change) (later.relabel change) := by
  cases item <;> rfl

def Sheet.relabel (sheet : Sheet) : Sheet := ⟨sheet.body.relabel change, sheet.span.relabel change⟩

@[simp] theorem Expr.span_relabel (expr : Expr) :
    (expr.relabel change).span = expr.span.relabel change := by
  cases expr <;> rfl

theorem Expr.diagnostics_relabel (expr : Expr) :
    (expr.relabel change).diagnostics = expr.diagnostics.map (Diagnostic.relabel change) := by
  induction expr with
  | literal value span => rfl
  | reference name span diagnostic => cases diagnostic <;> rfl
  | operation operator lhs rhs span diagnostic ihl ihr =>
      cases diagnostic <;> simp [relabel, diagnostics, ihl, ihr]

theorem Declaration.diagnostics_relabel (declared : Declaration) :
    (declared.relabel change).diagnostics =
      declared.diagnostics.map (Diagnostic.relabel change) := by
  unfold diagnostics
  rw [List.map_append, ← Expr.diagnostics_relabel]
  cases attached : declared.diagnostic <;> simp [relabel, attached]

theorem Body.diagnostics_relabel (body : Body) :
    (body.relabel change).diagnostics = body.diagnostics.map (Diagnostic.relabel change) := by
  induction body with
  | empty => rfl
  | declaration declared later ih =>
      simp only [relabel, diagnostics, Declaration.diagnostics_relabel, ih, List.map_append]
  | assignment assigned later ih =>
      simp only [relabel, diagnostics, Assignment.relabel, Expr.diagnostics_relabel, ih,
        List.map_append]
  | rule selectors inner span later ihInner ihLater =>
      simp only [relabel, diagnostics, ihInner, ihLater, List.map_append]

theorem Sheet.diagnostics_relabel (sheet : Sheet) :
    (sheet.relabel change).diagnostics = sheet.diagnostics.map (Diagnostic.relabel change) :=
  Body.diagnostics_relabel change sheet.body

theorem Sheet.isClean_relabel (sheet : Sheet) :
    (sheet.relabel change).isClean = sheet.isClean := by
  rw [isClean, diagnostics_relabel, List.isEmpty_map, isClean]

end Trees

namespace Scopes
variable {Value : Type} (change : Relabeling)

def relabel (scopes : Scopes Value) : Scopes Value :=
  ⟨scopes.innermost.map fun (name, value) => (change.name name, value),
    scopes.outer.map fun frame => frame.map fun (name, value) => (change.name name, value)⟩

@[simp] theorem relabel_initial : (initial : Scopes Value).relabel change = initial := rfl

@[simp] theorem relabel_bind (scopes : Scopes Value) (name : String) (value : Value) :
    (scopes.bind name value).relabel change =
      (scopes.relabel change).bind (change.name name) value := rfl

@[simp] theorem relabel_enterFor (selectors : List Selector) (scopes : Scopes Value) :
    (scopes.enterFor selectors).relabel change = (scopes.relabel change).enterFor selectors := by
  unfold enterFor
  split <;> rfl

@[simp] theorem relabel_afterRule (selectors : List Selector) (before inside : Scopes Value) :
    (afterRule selectors before inside).relabel change =
      afterRule selectors (before.relabel change) (inside.relabel change) := by
  unfold afterRule
  split <;> rfl

variable {change}

theorem lookup_relabel_frame (faithful : change.Faithful) (frame : Frame Value) (name : String) :
    List.lookup (change.name name) (frame.map fun (name, value) => (change.name name, value)) =
      List.lookup name frame := by
  induction frame with
  | nil => rfl
  | cons binding later ih =>
      obtain ⟨bound, value⟩ := binding
      have same : (change.name name == change.name bound) = (name == bound) := by
        rw [Bool.eq_iff_iff, beq_iff_eq, beq_iff_eq]
        exact faithful.eq_iff
      simp only [List.map_cons, List.lookup_cons, ih, same]

theorem resolve?_relabel (faithful : change.Faithful) (scopes : Scopes Value) (name : String) :
    (scopes.relabel change).resolve? (change.name name) = scopes.resolve? name := by
  have frames : (scopes.relabel change).frames =
      scopes.frames.map fun frame => frame.map fun (name, value) => (change.name name, value) := rfl
  unfold resolve?
  rw [frames]
  induction scopes.frames with
  | nil => rfl
  | cons frame later ih =>
      simp only [List.map_cons, List.findSome?_cons, lookup_relabel_frame faithful, ih]

theorem isBound_relabel (faithful : change.Faithful) (scopes : Scopes Value) (name : String) :
    (scopes.relabel change).isBound (change.name name) = scopes.isBound name := by
  rw [isBound, resolve?_relabel faithful, isBound]

end Scopes

section Outcomes
variable {Failure Result Next : Type}

def relabeled (report : Failure → Failure) (give : Result → Result) :
    Except Failure Result → Except Failure Result
  | .ok result => .ok (give result)
  | .error failure => .error (report failure)

-- For two stages in a row, of which `give` relabels what passes between them.
theorem relabeled_bind {report : Failure → Failure} {give : Result → Result} {other : Next → Next}
    {next further : Result → Except Failure Next} (first : Except Failure Result)
    (there : ∀ result, further (give result) = relabeled report other (next result)) :
    (relabeled report give first >>= further) = relabeled report other (first >>= next) := by
  cases first with
  | error failure => rfl
  | ok result => exact there result

end Outcomes

section Stages
variable {change : Relabeling}

theorem annotate_relabel (violation? : Option Fault) (span : Span) (before : Option Diagnostic) :
    annotate (violation?.map (Fault.relabel change)) (span.relabel change)
        (before.map (Diagnostic.relabel change)) =
      (annotate violation? span before).map (Diagnostic.relabel change) := by
  cases violation? <;> rfl

theorem Operator.violation?_relabel (operator : Operator) (lhs rhs : ValueType) :
    (operator.violation? lhs rhs).map (Fault.relabel change) = operator.violation? lhs rhs := by
  unfold violation?
  split
  · rfl
  · cases operator <;> dsimp only <;> split <;> rfl

variable (faithful : change.Faithful)
include faithful

namespace Expr

theorem typeIn_relabel (scopes : Scopes ValueType) (expr : Expr) :
    (expr.relabel change).typeIn (scopes.relabel change) = expr.typeIn scopes := by
  induction expr with
  | literal value span => rfl
  | reference name span diagnostic =>
      simp only [relabel, typeIn, Scopes.resolve?_relabel faithful]
  | operation operator lhs rhs span diagnostic ihl ihr => simp only [relabel, typeIn, ihl, ihr]

theorem check_relabel (scopes : Scopes ValueType) (expr : Expr) :
    (expr.relabel change).check (scopes.relabel change) =
      (expr.check scopes).relabel change := by
  induction expr with
  | literal value span => rfl
  | reference name span before =>
      simp only [relabel, check, Scopes.isBound_relabel faithful, ← annotate_relabel]
      by_cases bound : scopes.isBound name = true <;> simp [bound, Fault.relabel]
  | operation operator lhs rhs span before ihl ihr =>
      simp only [relabel, check, typeIn_relabel faithful, ihl, ihr, ← annotate_relabel,
        Operator.violation?_relabel]

end Expr

theorem Declaration.check_relabel (scopes : Scopes ValueType) (declared : Declaration) :
    (declared.relabel change).check (scopes.relabel change) =
      (declared.check scopes).relabel change := by
  simp only [relabel, check, Expr.typeIn_relabel faithful, Expr.check_relabel faithful,
    ← annotate_relabel]
  split <;> rfl

-- What is bound after a rule decides how the rest is checked, so both go into one induction.
theorem Body.check_typesAfter_relabel (scopes : Scopes ValueType) (body : Body) :
    (body.relabel change).check (scopes.relabel change) = (body.check scopes).relabel change ∧
      (body.relabel change).typesAfter (scopes.relabel change) =
        (body.typesAfter scopes).relabel change := by
  induction body generalizing scopes with
  | empty => exact ⟨rfl, rfl⟩
  | declaration declared later ih =>
      simp only [relabel, check_declaration, typesAfter_declaration, ih,
        Declaration.check_relabel faithful, and_self]
  | assignment assigned later ih =>
      have later := ih (scopes.bind assigned.name (assigned.value.typeIn scopes))
      simp only [Scopes.relabel_bind] at later
      simp only [relabel, check_assignment, typesAfter_assignment, Assignment.relabel,
        Assignment.check, Expr.typeIn_relabel faithful, Expr.check_relabel faithful, later,
        and_self]
  | rule selectors inner span later ihInner ihLater =>
      have inside := ihInner (scopes.enterFor selectors)
      have after := ihLater (typesAfterRule scopes selectors inner)
      rw [typesAfterRule, Scopes.relabel_afterRule, ← inside.2] at after
      simp only [Scopes.relabel_enterFor] at inside after
      simp only [relabel, check_rule, typesAfter_rule, typesAfterRule, inside.1, after, and_self]

theorem Sheet.check_relabel (sheet : Sheet) :
    (sheet.relabel change).check = sheet.check.relabel change := by
  have body := (Body.check_typesAfter_relabel faithful .initial sheet.body).1
  rw [Scopes.relabel_initial] at body
  simp only [check, relabel, body]

theorem Expr.fold_relabel (scopes : Scopes Literal) (expr : Expr) :
    (expr.relabel change).fold (scopes.relabel change) =
      relabeled (Diagnostic.relabel change) id (expr.fold scopes) := by
  induction expr with
  | literal value span => rfl
  | reference name span diagnostic =>
      simp only [relabel, fold, Scopes.resolve?_relabel faithful]
      cases scopes.resolve? name <;> rfl
  | operation operator lhs rhs span diagnostic ihl ihr =>
      simp only [relabel, fold, ihl, ihr]
      apply relabeled_bind
      intro left
      apply relabeled_bind
      intro right
      dsimp only [id]
      cases operator.value? left right <;> rfl

omit faithful in
theorem Declaration.withValue_relabel (declared : Declaration) (value : Literal) :
    (declared.relabel change).withValue value = (declared.withValue value).relabel change := by
  simp only [withValue, relabel, Expr.relabel, Expr.span_relabel]

omit faithful in
theorem Assignment.withValue_relabel (assigned : Assignment) (value : Literal) :
    (assigned.relabel change).withValue value = (assigned.withValue value).relabel change := by
  simp only [withValue, relabel, Expr.relabel, Expr.span_relabel]

def Relabeling.both (change : Relabeling) (left : Scopes Literal × Body) : Scopes Literal × Body :=
  (left.1.relabel change, left.2.relabel change)

theorem Body.folded_relabel (scopes : Scopes Literal) (body : Body) :
    (body.relabel change).folded (scopes.relabel change) =
      relabeled (Diagnostic.relabel change) change.both (body.folded scopes) := by
  induction body generalizing scopes with
  | empty => rfl
  | declaration declared later ih =>
      have here : (declared.relabel change).value.fold (scopes.relabel change) = _ :=
        Expr.fold_relabel faithful scopes declared.value
      rw [relabel, folded_declaration, folded_declaration, here]
      apply relabeled_bind
      intro value
      rw [ih]
      apply relabeled_bind
      intro rest
      rw [id, Declaration.withValue_relabel]
      rfl
  | assignment assigned later ih =>
      have here : (assigned.relabel change).value.fold (scopes.relabel change) = _ :=
        Expr.fold_relabel faithful scopes assigned.value
      rw [relabel, folded_assignment, folded_assignment, here]
      apply relabeled_bind
      intro value
      have bound : (scopes.relabel change).bind (assigned.relabel change).name (id value) =
        (scopes.bind assigned.name value).relabel change := rfl
      rw [bound, ih]
      apply relabeled_bind
      intro rest
      rw [id, Assignment.withValue_relabel]
      rfl
  | rule selectors inner span later ihInner ihLater =>
      rw [relabel, folded_rule, folded_rule, ← Scopes.relabel_enterFor, ihInner]
      apply relabeled_bind
      rintro ⟨inside, innerRest⟩
      simp only [Relabeling.both, ← Scopes.relabel_afterRule, ihLater]
      apply relabeled_bind
      intro rest
      rfl

theorem Sheet.evaluate_relabel (sheet : Sheet) :
    (sheet.relabel change).evaluate =
      relabeled (Diagnostic.relabel change) (Sheet.relabel change) sheet.evaluate := by
  have body := Body.folded_relabel faithful .initial sheet.body
  rw [Scopes.relabel_initial] at body
  rw [evaluate, evaluate, Body.evaluate_eq, Body.evaluate_eq, relabel, body]
  cases sheet.body.folded .initial <;> rfl

omit faithful

namespace Css

theorem settings_relabel (indent : Nat) (body : Body) :
    settings indent (body.relabel change) =
      relabeled (Stop.map (Diagnostic.relabel change)) id (settings indent body) := by
  induction body with
  | empty => rfl
  | declaration declared later ih =>
      have here : setting indent (declared.relabel change) =
          relabeled (Stop.map (Diagnostic.relabel change)) id (setting indent declared) := by
        unfold setting Declaration.relabel
        cases declared.value with
        | literal value span =>
            simp only [Expr.relabel]
            split <;> rfl
        | reference name span diagnostic | operation operator lhs rhs span diagnostic => rfl
      rw [Body.relabel, settings, settings, here, ih]
      apply relabeled_bind
      intro first
      apply relabeled_bind
      intro rest
      rfl
  | assignment assigned later ih => exact ih
  | rule selectors inner span later ihInner ihLater => exact ihLater

theorem blocks_relabel (indent : Nat) (paths : List (List Selector)) (body : Body) :
    blocks indent paths (body.relabel change) =
      relabeled (Stop.map (Diagnostic.relabel change)) id (blocks indent paths body) := by
  induction body generalizing paths with
  | empty => rfl
  | declaration declared later ih => exact ih paths
  | assignment assigned later ih => exact ih paths
  | rule selectors inner span later ihInner ihLater =>
      rw [Body.relabel, blocks, blocks, settings_relabel, ihInner, ihLater]
      apply relabeled_bind
      intro own
      apply relabeled_bind
      intro nested
      apply relabeled_bind
      intro after
      rfl

end Css

theorem Sheet.css_relabel (indent : Nat) (sheet : Sheet) :
    (sheet.relabel change).css indent =
      relabeled (Stop.map (Diagnostic.relabel change)) id (sheet.css indent) := by
  rw [css, css, relabel, Css.blocks_relabel]
  apply relabeled_bind
  intro blocks
  rfl

theorem Compiled.ofStage_relabeled {Result : Type} (report : Diagnostic → Diagnostic)
    (give : Result → Result) (stage : Except (Stop Diagnostic) Result) :
    Compiled.ofStage (relabeled (Stop.map report) give stage) =
      relabeled (Stop.map (List.map report)) give (Compiled.ofStage stage) := by
  rcases stage with (diagnostic | cause) | result <;> rfl

def Sheet.compiled (indent : Nat) (sheet : Sheet) : Compiled String :=
  if sheet.check.isClean then do
    let evaluated ← Compiled.ofStage (sheet.check.evaluate.mapError Stop.fault)
    Compiled.ofStage (evaluated.css indent)
  else throw (.fault sheet.check.diagnostics)

theorem compile_eq (source file : String) (indent : Nat) :
    compile source file indent =
      Compiled.ofStage (Sheet.ofSource source file) >>= Sheet.compiled indent := by
  rw [compile, checkedSheet]
  cases Compiled.ofStage (Sheet.ofSource source file) with
  | error stop => rfl
  | ok sheet =>
      change ((if sheet.check.isClean then pure sheet.check else throw _) >>= _) =
        sheet.compiled indent
      unfold Sheet.compiled
      split <;> rfl

theorem Sheet.compiled_relabel (faithful : change.Faithful) (indent : Nat) (sheet : Sheet) :
    (sheet.relabel change).compiled indent =
      relabeled (Stop.map (List.map (Diagnostic.relabel change))) id (sheet.compiled indent) := by
  have folded : Compiled.ofStage ((sheet.check.relabel change).evaluate.mapError Stop.fault) =
      relabeled (Stop.map (List.map (Diagnostic.relabel change))) (Sheet.relabel change)
        (Compiled.ofStage (sheet.check.evaluate.mapError Stop.fault)) := by
    rw [evaluate_relabel faithful]
    cases sheet.check.evaluate <;> rfl
  rw [compiled, compiled, check_relabel faithful, isClean_relabel, diagnostics_relabel]
  by_cases clean : sheet.check.isClean = true
  · rw [if_pos clean, if_pos clean, folded]
    apply relabeled_bind
    intro evaluated
    rw [css_relabel, Compiled.ofStage_relabeled]
  · rw [if_neg clean, if_neg clean]
    rfl

end Stages

end TypedStyle
