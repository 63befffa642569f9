import Mathlib.Data.List.Forall2
import TypedStyle.Evaluation
import TypedStyle.Proofs.Scoping

/-!
Evaluation item by item. A body is folded to the body of its literals together with the scopes
that are left, by one equation for each kind of item; the first expression without a value ends
it. What evaluation gives back has a literal in every declaration.
-/

namespace TypedStyle

section Stopping
variable {Failure Result Next : Type}

theorem ok_of_bind {first : Except Failure Result} {next : Result → Except Failure Next}
    {result : Next} (done : (first >>= next) = .ok result) :
    ∃ middle, first = .ok middle ∧ next middle = .ok result := by
  cases first with
  | error failure => cases done
  | ok middle => exact ⟨middle, rfl, done⟩

theorem exists_ok_bind {first : Except Failure Result} {next : Result → Except Failure Next}
    {middle : Result} (here : first = .ok middle) (there : ∃ result, next middle = .ok result) :
    ∃ result, (first >>= next) = .ok result := by
  rw [here]
  exact there

theorem error_of_bind {first : Except Failure Result} {next : Result → Except Failure Next}
    {failure : Failure} (stopped : (first >>= next) = .error failure) :
    first = .error failure ∨ ∃ middle, first = .ok middle ∧ next middle = .error failure := by
  cases first with
  | error other =>
      cases stopped
      exact Or.inl rfl
  | ok middle => exact Or.inr ⟨middle, rfl, stopped⟩

variable {Input : Type} {step : Input → Except Failure Result} {inputs : List Input}

theorem mapM_eq_ok {results : List Result} :
    inputs.mapM step = .ok results ↔
      List.Forall₂ (fun input result => step input = .ok result) inputs results := by
  induction inputs generalizing results with
  | nil =>
      rw [List.mapM_nil, List.forall₂_nil_left_iff]
      exact ⟨fun done => (Except.ok.inj done).symm, fun empty => congrArg Except.ok empty.symm⟩
  | cons input later ih =>
      rw [List.mapM_cons, List.forall₂_cons_left_iff]
      constructor
      · intro done
        obtain ⟨result, here, done⟩ := ok_of_bind done
        obtain ⟨rest, there, done⟩ := ok_of_bind done
        exact ⟨result, rest, here, ih.mp there, (Except.ok.inj done).symm⟩
      · rintro ⟨result, rest, here, there, rfl⟩
        rw [here, ih.mpr there]
        rfl

theorem ok_of_mapM {results : List Result} (done : inputs.mapM step = .ok results) {input : Input}
    (member : input ∈ inputs) : ∃ result, step input = .ok result := by
  induction mapM_eq_ok.mp done with
  | nil => cases member
  | cons here later ih =>
      rcases List.mem_cons.mp member with rfl | member
      · exact ⟨_, here⟩
      · exact ih (mapM_eq_ok.mpr later) member

/-- Going through a list stops at the first failure. -/
theorem first_of_mapM_error {failure : Failure} (stopped : inputs.mapM step = .error failure) :
    ∃ front input back, inputs = front ++ input :: back ∧
      (∀ earlier ∈ front, ∃ result, step earlier = .ok result) ∧ step input = .error failure := by
  induction inputs with
  | nil => cases stopped
  | cons first later ih =>
      rw [List.mapM_cons] at stopped
      rcases error_of_bind stopped with here | ⟨result, done, stopped⟩
      · exact ⟨[], first, later, rfl, nofun, here⟩
      · rcases error_of_bind stopped with there | ⟨_, _, stopped⟩
        · obtain ⟨front, input, back, rfl, before, here⟩ := ih there
          exact ⟨first :: front, input, back, rfl,
            List.forall_mem_cons.mpr ⟨⟨result, done⟩, before⟩, here⟩
        · cases stopped

end Stopping

section Outcomes
variable {Value Failure Node : Type}

def Visit.outcome (visit : Visit Value Unit Failure Node) : Except Failure (Scopes Value × Node) :=
  match visit.failure? with
  | none => .ok (visit.scopes, visit.node)
  | some failure => .error failure

theorem Visit.outcome_andLater (visit : Visit Value Unit Failure Node) (join : Node → Body → Body)
    (later : Body) (walkLater : Scopes Value → Unit → Visit Value Unit Failure Body) :
    (visit.andLater join later walkLater).outcome = do
      let (scopes, node) ← visit.outcome
      let (after, rest) ← (walkLater scopes ()).outcome
      return (after, join node rest) := by
  obtain ⟨scopes, notes, node, failure?⟩ := visit
  cases failure? with
  | some failure => rfl
  | none =>
      cases ended : (walkLater scopes ()).failure? <;>
        simp [andLater, map, outcome, ended, bind, Except.bind, pure, Except.pure]

end Outcomes

theorem Pass.folding_bindsInnermost : Pass.folding.BindsInnermost where
  assignment scopes notes assigned := by
    unfold folding
    dsimp only
    split <;> rfl
  declaration scopes notes declared := by
    unfold folding
    dsimp only
    split <;> rfl

def Assignment.withValue (assigned : Assignment) (value : Literal) : Assignment :=
  { assigned with value := .literal value assigned.value.span }

def Declaration.withValue (declared : Declaration) (value : Literal) : Declaration :=
  { declared with value := .literal value declared.value.span }

namespace Body

def folded (scopes : Scopes Literal) (body : Body) : Except Diagnostic (Scopes Literal × Body) :=
  (Pass.folding.walk scopes () body).outcome

theorem evaluate_eq (scopes : Scopes Literal) (body : Body) :
    body.evaluate scopes = (body.folded scopes).map Prod.snd := by
  simp only [evaluate, folded, Visit.outcome]
  cases (Pass.folding.walk scopes () body).failure? <;> rfl

variable (scopes : Scopes Literal)

theorem folded_empty : empty.folded scopes = .ok (scopes, empty) := rfl

theorem folded_declaration (declared : Declaration) (later : Body) :
    (declaration declared later).folded scopes = do
      let value ← declared.value.fold scopes
      let (after, rest) ← later.folded scopes
      return (after, declaration (declared.withValue value) rest) := by
  rw [folded, Pass.walk, Visit.outcome_andLater]
  simp only [Pass.folding]
  cases declared.value.fold scopes <;> rfl

theorem folded_assignment (assigned : Assignment) (later : Body) :
    (assignment assigned later).folded scopes = do
      let value ← assigned.value.fold scopes
      let (after, rest) ← later.folded (scopes.bind assigned.name value)
      return (after, assignment (assigned.withValue value) rest) := by
  rw [folded, Pass.walk, Visit.outcome_andLater]
  simp only [Pass.folding]
  cases assigned.value.fold scopes <;> rfl

theorem folded_rule (selectors : List Selector) (inner : Body) (span : Span) (later : Body) :
    (rule selectors inner span later).folded scopes = do
      let (inside, innerRest) ← inner.folded (scopes.enterFor selectors)
      let (after, rest) ← later.folded (scopes.afterRule selectors inside)
      return (after, rule selectors innerRest span rest) := by
  rw [folded, Pass.walk_rule Pass.folding_bindsInnermost, Visit.outcome_andLater]
  simp only [folded, Visit.outcome]
  cases (Pass.folding.walk (scopes.enterFor selectors) () inner).failure? <;> rfl

section Inversion

variable {scopes} {after : Scopes Literal} {later result : Body}

theorem of_folded_declaration {declared : Declaration}
    (done : (declaration declared later).folded scopes = .ok (after, result)) :
    ∃ value rest, declared.value.fold scopes = .ok value ∧
      later.folded scopes = .ok (after, rest) ∧
      result = declaration (declared.withValue value) rest := by
  rw [folded_declaration] at done
  obtain ⟨value, here, done⟩ := ok_of_bind done
  obtain ⟨⟨_, rest⟩, there, done⟩ := ok_of_bind done
  cases done
  exact ⟨value, rest, here, there, rfl⟩

theorem of_folded_assignment {assigned : Assignment}
    (done : (assignment assigned later).folded scopes = .ok (after, result)) :
    ∃ value rest, assigned.value.fold scopes = .ok value ∧
      later.folded (scopes.bind assigned.name value) = .ok (after, rest) ∧
      result = assignment (assigned.withValue value) rest := by
  rw [folded_assignment] at done
  obtain ⟨value, here, done⟩ := ok_of_bind done
  obtain ⟨⟨_, rest⟩, there, done⟩ := ok_of_bind done
  cases done
  exact ⟨value, rest, here, there, rfl⟩

theorem of_folded_rule {selectors : List Selector} {inner : Body} {span : Span}
    (done : (rule selectors inner span later).folded scopes = .ok (after, result)) :
    ∃ inside innerRest rest, inner.folded (scopes.enterFor selectors) = .ok (inside, innerRest) ∧
      later.folded (scopes.afterRule selectors inside) = .ok (after, rest) ∧
      result = rule selectors innerRest span rest := by
  rw [folded_rule] at done
  obtain ⟨⟨inside, innerRest⟩, here, done⟩ := ok_of_bind done
  obtain ⟨⟨_, rest⟩, there, done⟩ := ok_of_bind done
  cases done
  exact ⟨inside, innerRest, rest, here, there, rfl⟩

end Inversion

/-- The second body is the first with a literal in the place of each expression, which takes the
span of the expression. -/
inductive Filled : Body → Body → Prop where
  | empty : Filled .empty .empty
  | declaration {declared : Declaration} {later rest : Body} (value : Literal)
      (there : Filled later rest) :
      Filled (.declaration declared later)
        (.declaration { declared with value := .literal value declared.value.span } rest)
  | assignment {assigned : Assignment} {later rest : Body} (value : Literal)
      (there : Filled later rest) :
      Filled (.assignment assigned later)
        (.assignment { assigned with value := .literal value assigned.value.span } rest)
  | rule {selectors : List Selector} {inner filled : Body} {span : Span} {later rest : Body}
      (inside : Filled inner filled) (there : Filled later rest) :
      Filled (.rule selectors inner span later) (.rule selectors filled span rest)

theorem filled_of_folded {scopes after : Scopes Literal} {body result : Body}
    (done : body.folded scopes = .ok (after, result)) : body.Filled result := by
  induction body generalizing scopes after result with
  | empty =>
      cases done
      exact .empty
  | declaration declared later ih =>
      obtain ⟨value, rest, _, there, rfl⟩ := of_folded_declaration done
      exact .declaration value (ih there)
  | assignment assigned later ih =>
      obtain ⟨value, rest, _, there, rfl⟩ := of_folded_assignment done
      exact .assignment value (ih there)
  | rule selectors inner span later ihInner ihLater =>
      obtain ⟨_, _, _, inside, there, rfl⟩ := of_folded_rule done
      exact .rule (ihInner inside) (ihLater there)

def declarations : Body → List Declaration
  | .empty => []
  | .declaration declared later => declared :: later.declarations
  | .assignment _ later => later.declarations
  | .rule _ inner _ later => inner.declarations ++ later.declarations

def Evaluated (body : Body) : Prop :=
  ∀ declared ∈ body.declarations, ∃ value span, declared.value = .literal value span

theorem Filled.evaluated {body result : Body} (filled : body.Filled result) :
    result.Evaluated := by
  intro declared member
  induction filled with
  | empty => cases member
  | declaration value _ ih =>
      rcases List.mem_cons.mp member with rfl | member
      · exact ⟨value, _, rfl⟩
      · exact ih member
  | assignment _ _ ih => exact ih member
  | rule _ _ ihInner ihLater =>
      rcases List.mem_append.mp member with member | member
      · exact ihInner member
      · exact ihLater member

/-- The declarations of the rules of the body, at any depth. -/
def nested : Body → List Declaration
  | .empty => []
  | .declaration _ later | .assignment _ later => later.nested
  | .rule _ inner _ later => inner.declarations ++ later.nested

theorem nested_of_declarations {body : Body} (undeclared : body.declarations = []) :
    body.nested = [] := by
  induction body with
  | empty => rfl
  | declaration declared later ih => cases undeclared
  | assignment assigned later ih => exact ih undeclared
  | rule selectors inner span later ihInner ihLater =>
      obtain ⟨inside, after⟩ := List.append_eq_nil_iff.mp undeclared
      rw [nested, inside, ihLater after, List.append_nil]

theorem Filled.lengths {body result : Body} (filled : body.Filled result) :
    result.declarations.length = body.declarations.length ∧
      result.nested.length = body.nested.length := by
  induction filled with
  | empty => exact ⟨rfl, rfl⟩
  | declaration _ _ ih | assignment _ _ ih => simp [declarations, nested, ih]
  | rule _ _ ihInner ihLater => simp [declarations, nested, ihInner, ihLater]

theorem Filled.nested_eq_nil {body result : Body} (filled : body.Filled result) :
    result.nested = [] ↔ body.nested = [] := by
  rw [← List.length_eq_zero_iff, filled.lengths.2, List.length_eq_zero_iff]

end Body

end TypedStyle
