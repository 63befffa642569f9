import Mathlib.Logic.Equiv.Basic
import TypedStyle.Proofs.Positions
import TypedStyle.Proofs.Relabeling

/-!
Sheets under other variable names. Scopes compare names for equality and nothing else is done with
them, so a renaming that keeps different names apart can be carried out before checking and
evaluating or after it. No name is left in the CSS.
-/

namespace TypedStyle

namespace Relabeling

def naming (name : String → String) : Relabeling := ⟨id, name⟩

theorem faithful_naming {name : String → String} (injective : Function.Injective name) :
    (naming name).Faithful :=
  injective

end Relabeling

/-- The sheet with `name` applied to the variables of its assignments and references and of the
diagnostics attached to it. -/
def Sheet.rename (name : String → String) (sheet : Sheet) : Sheet := sheet.relabel (.naming name)

def Expr.literal? : Expr → Option Literal
  | .literal value _ => some value
  | .reference .. | .operation .. => none

def Body.literals : Body → List Literal
  | .empty => []
  | .declaration declared later => declared.value.literal?.toList ++ later.literals
  | .assignment assigned later => assigned.value.literal?.toList ++ later.literals
  | .rule _ inner _ later => inner.literals ++ later.literals

theorem Expr.literal?_relabel (change : Relabeling) (expr : Expr) :
    (expr.relabel change).literal? = expr.literal? := by
  cases expr <;> rfl

theorem Body.literals_relabel (change : Relabeling) (body : Body) :
    (body.relabel change).literals = body.literals := by
  induction body with
  | empty => rfl
  | declaration declared later ih =>
      simp only [relabel, literals, Declaration.relabel, Expr.literal?_relabel, ih]
  | assignment assigned later ih =>
      simp only [relabel, literals, Assignment.relabel, Expr.literal?_relabel, ih]
  | rule selectors inner span later ihInner ihLater =>
      simp only [relabel, literals, ihInner, ihLater]

namespace Sheet

theorem evaluated_of_evaluate {sheet evaluated : Sheet} (done : sheet.evaluate = .ok evaluated) :
    evaluated.body.Evaluated := by
  obtain ⟨after, body, folded, rfl⟩ := body_of_evaluate done
  exact (Body.filled_of_folded folded).evaluated

-- Only a fault could carry labels, and writing an evaluated sheet reports none.
theorem css_relabel_of_evaluated {sheet : Sheet} (evaluated : sheet.body.Evaluated)
    (change : Relabeling) (indent : Nat) :
    (sheet.relabel change).css indent = sheet.css indent := by
  rw [css_relabel, css]
  cases written : Css.blocks indent [] sheet.body with
  | ok blocks => rfl
  | error stop =>
      cases stop with
      | breach cause => rfl
      | fault diagnostic => exact (Css.blocks_ne_fault evaluated indent [] diagnostic written).elim

/-- Renaming variables apart commutes with checking and with evaluating, down to the names in what
is attached or reported. The renamed sheet is evaluated if and only if the sheet is, to the same
literals, and to a sheet that is written as the same CSS. -/
theorem rename_commutes {name : String → String} (injective : Function.Injective name)
    (sheet : Sheet) :
    (sheet.rename name).check = sheet.check.rename name ∧
    (∀ stopped, sheet.evaluate = .error stopped →
      (sheet.rename name).evaluate = .error (stopped.relabel (.naming name))) ∧
    ((∃ other, (sheet.rename name).evaluate = .ok other) ↔
      ∃ evaluated, sheet.evaluate = .ok evaluated) ∧
    ∀ evaluated other, sheet.evaluate = .ok evaluated →
      (sheet.rename name).evaluate = .ok other →
      other = evaluated.rename name ∧ other.body.literals = evaluated.body.literals ∧
      ∀ indent, other.css indent = evaluated.css indent ∧
        (indent ≤ widestField → ∃ css, evaluated.css indent = .ok css) := by
  have faithful := Relabeling.faithful_naming injective
  have evaluates : (sheet.rename name).evaluate =
      relabeled (Diagnostic.relabel (.naming name)) (Sheet.rename name) sheet.evaluate :=
    evaluate_relabel faithful sheet
  refine ⟨check_relabel faithful sheet, ?_, ?_, ?_⟩
  · intro stopped failed
    rw [evaluates, failed]
    rfl
  · rw [evaluates]
    cases sheet.evaluate <;> simp [relabeled]
  · intro evaluated other done likewise
    have literal := evaluated_of_evaluate done
    rw [evaluates, done] at likewise
    cases likewise
    refine ⟨rfl, Body.literals_relabel _ evaluated.body, ?_⟩
    intro indent
    exact ⟨css_relabel_of_evaluated literal _ indent, fun narrow => css_of_evaluated narrow literal⟩

def shadowedSum : Sheet where
  body :=
    .assignment ⟨"@a", .literal (.pixel 1) .null, .null⟩ <|
    .rule [.byClass "x"]
      (.assignment ⟨"@b", .reference "@a" .null (some ⟨.undefinedVariable "@a", .null⟩), .null⟩ <|
       .assignment ⟨"@a", .literal (.pixel 2) .null, .null⟩ <|
       .declaration ⟨.width, .operation .add (.reference "@a" .null none)
         (.reference "@b" .null none) .null none, .null, none⟩ .empty) .null .empty
  span := .null

/-- A rule shadows a variable after using it, where an older diagnostic is still attached. -/
theorem shadowedSum_renamed :
    Function.Injective (Equiv.swap "@a" "@b") ∧
    (shadowedSum.rename (Equiv.swap "@a" "@b")).check.diagnostics =
      [⟨.undefinedVariable "@b", .null⟩] ∧
    ∃ other, (shadowedSum.rename (Equiv.swap "@a" "@b")).evaluate = .ok other ∧
      other.body.literals = [.pixel 1, .pixel 1, .pixel 2, .pixel 3] ∧
      other.css 2 = .ok ".x \x7b\n  width: 3px;\n\x7d\n" := by
  have injective := (Equiv.swap "@a" "@b").injective
  obtain ⟨checked, _, succeeds, same⟩ := rename_commutes injective shadowedSum
  obtain ⟨evaluated, done, literals, css⟩ : ∃ evaluated, shadowedSum.evaluate = .ok evaluated ∧
      evaluated.body.literals = [.pixel 1, .pixel 1, .pixel 2, .pixel 3] ∧
      evaluated.css 2 = .ok ".x \x7b\n  width: 3px;\n\x7d\n" := ⟨_, rfl, by decide, by decide⟩
  obtain ⟨other, likewise⟩ := succeeds.mpr ⟨evaluated, done⟩
  obtain ⟨_, kept, written⟩ := same evaluated other done likewise
  refine ⟨injective, ?_, other, likewise, kept.trans literals, (written 2).1.trans css⟩
  rw [checked]
  decide

end Sheet

end TypedStyle
