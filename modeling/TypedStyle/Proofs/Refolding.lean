import TypedStyle.Proofs.Agreement

/-!
What evaluation changes. It puts a literal in the place of every expression, with the span of that
expression, and leaves all else as it was. A body that holds literals only is folded to itself
whatever is bound, so evaluating an evaluated sheet changes nothing.
-/

namespace TypedStyle

namespace Body

def LiteralOnly : Body → Prop
  | .empty => True
  | .declaration declared later =>
      (∃ value span, declared.value = .literal value span) ∧ later.LiteralOnly
  | .assignment assigned later =>
      (∃ value span, assigned.value = .literal value span) ∧ later.LiteralOnly
  | .rule _ inner _ later => inner.LiteralOnly ∧ later.LiteralOnly

theorem Filled.literalOnly {body result : Body} (filled : body.Filled result) :
    result.LiteralOnly := by
  induction filled with
  | empty => trivial
  | declaration value _ ih => exact ⟨⟨value, _, rfl⟩, ih⟩
  | assignment value _ ih => exact ⟨⟨value, _, rfl⟩, ih⟩
  | rule _ _ ihInner ihLater => exact ⟨ihInner, ihLater⟩

/-- A body of literals is folded to itself in any scopes. -/
theorem folded_of_literalOnly {body : Body} (literal : body.LiteralOnly)
    (scopes : Scopes Literal) : ∃ after, body.folded scopes = .ok (after, body) := by
  induction body generalizing scopes with
  | empty => exact ⟨scopes, rfl⟩
  | declaration declared later ih =>
      obtain ⟨⟨value, span, same⟩, literal⟩ := literal
      obtain ⟨after, there⟩ := ih literal scopes
      have here : declared.value.fold scopes = .ok value := by rw [same]; rfl
      have kept : declared.withValue value = declared := by
        rw [Declaration.withValue, same, Expr.span, ← same]
      refine ⟨after, ?_⟩
      simp only [folded_declaration, here, there, kept, bind, Except.bind, pure, Except.pure]
  | assignment assigned later ih =>
      obtain ⟨⟨value, span, same⟩, literal⟩ := literal
      obtain ⟨after, there⟩ := ih literal (scopes.bind assigned.name value)
      have here : assigned.value.fold scopes = .ok value := by rw [same]; rfl
      have kept : assigned.withValue value = assigned := by
        rw [Assignment.withValue, same, Expr.span, ← same]
      refine ⟨after, ?_⟩
      simp only [folded_assignment, here, there, kept, bind, Except.bind, pure, Except.pure]
  | rule selectors inner span later ihInner ihLater =>
      obtain ⟨inside, here⟩ := ihInner literal.1 (scopes.enterFor selectors)
      obtain ⟨after, there⟩ := ihLater literal.2 (scopes.afterRule selectors inside)
      refine ⟨after, ?_⟩
      simp only [folded_rule, here, there, bind, Except.bind, pure, Except.pure]

end Body

namespace Sheet

theorem evaluate_of_literalOnly {sheet : Sheet} (literal : sheet.body.LiteralOnly) :
    sheet.evaluate = .ok sheet := by
  obtain ⟨after, folded⟩ := Body.folded_of_literalOnly literal .initial
  rw [evaluate_eq, folded]
  rfl

/-- Evaluation puts a literal in the place of every expression and changes nothing else, and what
it gives is evaluated to itself, as is every sheet that holds literals only. -/
theorem evaluate_fills (sheet : Sheet) :
    (∀ evaluated, sheet.evaluate = .ok evaluated →
      evaluated.span = sheet.span ∧ sheet.body.Filled evaluated.body ∧
        evaluated.evaluate = .ok evaluated) ∧
    (sheet.body.LiteralOnly → sheet.evaluate = .ok sheet) := by
  refine ⟨?_, evaluate_of_literalOnly⟩
  intro evaluated done
  obtain ⟨after, body, folded, rfl⟩ := body_of_evaluate done
  have filled := Body.filled_of_folded folded
  exact ⟨rfl, filled, evaluate_of_literalOnly filled.literalOnly⟩

def tallRed : Sheet where
  body :=
    .rule [] (.assignment ⟨"@c", .literal (.color "red") (.ofBytes 4 7 "s"), .null⟩ .empty) .null <|
    .declaration ⟨.height, .reference "@c" (.ofBytes 17 19 "s") none, .ofBytes 9 20 "s",
      some ⟨.colorInOperation, .null⟩⟩ .empty
  span := .null

def tallRedEvaluated : Sheet where
  body :=
    .rule [] (.assignment ⟨"@c", .literal (.color "red") (.ofBytes 4 7 "s"), .null⟩ .empty) .null <|
    .declaration ⟨.height, .literal (.color "red") (.ofBytes 17 19 "s"), .ofBytes 9 20 "s",
      some ⟨.colorInOperation, .null⟩⟩ .empty
  span := .null

/-- A rule without selectors binds a color, and a declaration outside any rule sets a height to it.
Checking would reject the declaration, which carries an older diagnostic. -/
theorem evaluate_fills_tallRed :
    tallRed.evaluate = .ok tallRedEvaluated ∧ tallRed.body.Filled tallRedEvaluated.body ∧
      tallRedEvaluated.evaluate = .ok tallRedEvaluated ∧ tallRedEvaluated.body.LiteralOnly := by
  have done : tallRed.evaluate = .ok tallRedEvaluated := rfl
  obtain ⟨_, filled, again⟩ := (evaluate_fills tallRed).1 tallRedEvaluated done
  exact ⟨done, filled, again, filled.literalOnly⟩

end Sheet

end TypedStyle
