import Mathlib.Logic.Relation
import TypedStyle.Proofs.Checking
import TypedStyle.Proofs.Folding

/-!
Scopes that are restored. A pass that does nothing to the scopes but bind names leaves them after a
rule with selectors just as they were before it, also if it fails inside the rule. Over a whole
sheet only the scope that was innermost at the start can change.
-/

namespace TypedStyle

variable {Value Notes Failure Node : Type}

namespace Scopes

def BindsOne (before after : Scopes Value) : Prop :=
  ∃ name value, after = before.bind name value

def Binds : Scopes Value → Scopes Value → Prop := Relation.ReflTransGen BindsOne

theorem Binds.bind (scopes : Scopes Value) (name : String) (value : Value) :
    scopes.Binds (scopes.bind name value) :=
  Relation.ReflTransGen.single ⟨name, value, rfl⟩

theorem Binds.outer {before after : Scopes Value} (binds : before.Binds after) :
    after.outer = before.outer := by
  induction binds with
  | refl => rfl
  | tail _ last ih =>
      obtain ⟨name, value, rfl⟩ := last
      exact ih

theorem depth_of_outer {before after : Scopes Value} (same : after.outer = before.outer) :
    after.depth = before.depth := by
  simp only [depth, frames, List.length_cons, same]

end Scopes

namespace Pass

/-- The visits of the pass do nothing to the scopes but bind names. -/
structure BindsOnly (pass : Pass Value Notes Failure) : Prop where
  assignment : ∀ (scopes : Scopes Value) notes assigned,
    scopes.Binds (pass.assignment scopes notes assigned).scopes
  declaration : ∀ (scopes : Scopes Value) notes declared,
    scopes.Binds (pass.declaration scopes notes declared).scopes

theorem BindsOnly.bindsInnermost {pass : Pass Value Notes Failure} (only : pass.BindsOnly) :
    pass.BindsInnermost where
  assignment scopes notes assigned := (only.assignment scopes notes assigned).outer
  declaration scopes notes declared := (only.declaration scopes notes declared).outer

theorem typing_bindsOnly : Pass.typing.BindsOnly where
  assignment scopes _ _ := .bind scopes _ _
  declaration _ _ _ := .refl

theorem folding_bindsOnly : Pass.folding.BindsOnly where
  assignment scopes notes assigned := by
    unfold folding
    dsimp only
    split
    · exact .bind scopes _ _
    · exact .refl
  declaration scopes notes declared := by
    unfold folding
    dsimp only
    split <;> exact .refl

-- After a failure the scopes stay what they are, and otherwise the empty rest leaves them so.
theorem andLater_empty (pass : Pass Value Notes Failure) (visit : Visit Value Notes Failure Node)
    (join : Node → Body → Body) :
    (visit.andLater join .empty fun scopes notes => pass.walk scopes notes .empty).scopes =
      visit.scopes := by
  unfold Visit.andLater
  split <;> rfl

/-- A pass that only binds leaves no trace of a rule with selectors in the scopes, and of a whole
sheet none but in the innermost scope, whether it comes to the end or fails on the way. -/
theorem walk_restores {pass : Pass Value Notes Failure} (only : pass.BindsOnly)
    (scopes : Scopes Value) (notes : Notes) :
    (∀ selectors inner span, selectors ≠ [] →
      (pass.walk scopes notes (.rule selectors inner span .empty)).scopes = scopes) ∧
    ∀ sheet : Sheet, (pass.walk scopes notes sheet.body).scopes.depth = scopes.depth ∧
      (pass.walk scopes notes sheet.body).scopes.outer = scopes.outer := by
  have binds := only.bindsInnermost
  constructor
  · intro selectors inner span selected
    rw [walk_rule binds]
    exact (andLater_empty pass _ _).trans (Scopes.afterRule_of_selected selected scopes _)
  · intro sheet
    have outer := walk_outer binds scopes notes sheet.body
    exact ⟨Scopes.depth_of_outer outer, outer⟩

def danglingWidth : Body :=
  .assignment ⟨"@w", .literal (.pixel 2) .null, .null⟩ <|
  .rule [.tag "p"]
    (.assignment ⟨"@w", .literal (.pixel 3) .null, .null⟩ <|
     .declaration ⟨.width, .reference "@v" .null none, .null, none⟩ .empty) .null .empty

/-- A rule binds a name anew, and so does the rule inside it, which then refers to a name that is
not bound. -/
theorem folding_restores_danglingWidth :
    let before : Scopes Literal := Scopes.initial.bind "@w" (.pixel 1)
    let visit := Pass.folding.walk before () (.rule [.byClass "a"] danglingWidth .null .empty)
    visit.failure? = some ⟨.unresolvedVariable "@v", .null⟩ ∧ visit.scopes = before ∧
      visit.scopes.depth = 1 := by
  have restored := (walk_restores folding_bindsOnly (Scopes.initial.bind "@w" (.pixel 1)) ()).1
    [.byClass "a"] danglingWidth .null (by simp)
  exact ⟨by decide, restored, by rw [restored]; rfl⟩

end Pass

end TypedStyle
