import Mathlib.Algebra.Ring.Int.Defs
import TypedStyle.Proofs.Agreement
import TypedStyle.Proofs.LexicalTyping

/-!
Evaluation against exact arithmetic. An expression has a meaning at its place: a number of any
size with its measure, or the text of a color. References stand for the meaning of the assignment
that binds them. Evaluation wraps after every operation and binds what it has wrapped, and still
gives the exact meaning wrapped once, since wrapping respects sums, differences and products.
-/

namespace TypedStyle

inductive Measure where
  | pixel
  | percentage
  | scalar
  deriving DecidableEq

def Measure.literal (magnitude : Int32) : Measure → Literal
  | .pixel => .pixel magnitude
  | .percentage => .percentage magnitude
  | .scalar => .scalar magnitude

inductive Meaning where
  | number (measure : Measure) (amount : Int)
  | color (text : String)
  deriving DecidableEq

def Literal.meaning : Literal → Meaning
  | .pixel magnitude => .number .pixel magnitude.toInt
  | .percentage magnitude => .number .percentage magnitude.toInt
  | .scalar magnitude => .number .scalar magnitude.toInt
  | .color text => .color text

/-- The meaning of an operation, given those of its operands. A sum or difference has the measure
that its operands share, and a product that of the operand which the other, a scalar, multiplies. -/
inductive Operator.Combines : Operator → Meaning → Meaning → Meaning → Prop where
  | sum {measure : Measure} {left right : Int} :
      Combines .add (.number measure left) (.number measure right) (.number measure (left + right))
  | difference {measure : Measure} {left right : Int} :
      Combines .subtract (.number measure left) (.number measure right)
        (.number measure (left - right))
  | multiple {measure : Measure} {left right : Int} :
      Combines .multiply (.number .scalar left) (.number measure right)
        (.number measure (left * right))
  | scaled {measure : Measure} {left right : Int} :
      Combines .multiply (.number measure left) (.number .scalar right)
        (.number measure (left * right))

inductive Means (sheet : Body) : Path → Expr → Meaning → Prop where
  | literal {place : Path} {value : Literal} {span : Span} :
      Means sheet place (.literal value span) value.meaning
  | reference {place source : Path} {name : String} {span : Span} {before : Option Diagnostic}
      {assigned : Assignment} {meaning : Meaning} (binds : sheet.Binds name place source)
      (found : sheet.item? source = some (.assignment assigned))
      (means : Means sheet source assigned.value meaning) :
      Means sheet place (.reference name span before) meaning
  | operation {place : Path} {operator : Operator} {lhs rhs : Expr} {span : Span}
      {before : Option Diagnostic} {left right whole : Meaning} (first : Means sheet place lhs left)
      (second : Means sheet place rhs right) (combines : operator.Combines left right whole) :
      Means sheet place (.operation operator lhs rhs span before) whole

/-! ### Wrapping -/

/-- The magnitude is the amount reduced modulo 2^32 into the signed range. -/
def Wraps (amount : Int) (magnitude : Int32) : Prop :=
  -2 ^ 31 ≤ magnitude.toInt ∧ magnitude.toInt < 2 ^ 31 ∧ 2 ^ 32 ∣ amount - magnitude.toInt

inductive Meaning.Rounds : Meaning → Literal → Prop where
  | number {measure : Measure} {amount : Int} {magnitude : Int32}
      (wraps : Wraps amount magnitude) : Rounds (.number measure amount) (measure.literal magnitude)
  | color {text : String} : Rounds (.color text) (.color text)

theorem wraps_iff {amount : Int} {magnitude : Int32} :
    Wraps amount magnitude ↔ Int32.ofInt amount = magnitude := by
  have low := magnitude.le_toInt
  have high := magnitude.toInt_lt
  rw [Int32.ofInt_eq_iff_bmod_eq_toInt, Int.bmod_eq_iff (by decide), Wraps]
  omega

theorem wraps_toInt (magnitude : Int32) : Wraps magnitude.toInt magnitude :=
  wraps_iff.mpr (Int32.ofInt_toInt magnitude)

section

variable {left right : Int} {first second : Int32} (here : Wraps left first)
  (there : Wraps right second)

include here there

theorem Wraps.add : Wraps (left + right) (first + second) := by
  rw [wraps_iff, Int32.ofInt_add, wraps_iff.mp here, wraps_iff.mp there]

theorem Wraps.sub : Wraps (left - right) (first - second) := by
  rw [wraps_iff, Int32.ofInt_sub, wraps_iff.mp here, wraps_iff.mp there]

theorem Wraps.mul : Wraps (left * right) (first * second) := by
  rw [wraps_iff, Int32.ofInt_mul, wraps_iff.mp here, wraps_iff.mp there]

end

theorem Literal.rounds_meaning (value : Literal) : value.meaning.Rounds value := by
  cases value with
  | pixel magnitude => exact @Meaning.Rounds.number .pixel _ _ (wraps_toInt magnitude)
  | percentage magnitude => exact @Meaning.Rounds.number .percentage _ _ (wraps_toInt magnitude)
  | scalar magnitude => exact @Meaning.Rounds.number .scalar _ _ (wraps_toInt magnitude)
  | color text => exact .color

namespace Operator

variable {operator : Operator} {left right : Meaning}

theorem Combines.unique {whole other : Meaning} (here : operator.Combines left right whole)
    (there : operator.Combines left right other) : other = whole := by
  cases here <;> cases there <;> rfl

theorem combine?_literal (join : Int32 → Int32 → Int32) (one other : Measure)
    (first second : Int32) :
    combine? join (one.literal first) (other.literal second) =
      if one = other then some (one.literal (join first second)) else none := by
  cases one <;> cases other <;> rfl

theorem value?_multiply_literal (one other : Measure) (first second : Int32) :
    value? .multiply (one.literal first) (other.literal second) =
      if one = .scalar then some (other.literal (first * second))
      else if other = .scalar then some (one.literal (first * second)) else none := by
  cases one <;> cases other <;>
    simp [value?, scale?, Measure.literal, Literal.magnitude?, Literal.withMagnitude?,
      Int32.mul_comm]

-- An operation on wrapped operands has a value only if the exact one has, and it is the exact one
-- wrapped.
theorem rounds_value? {lhs rhs : Literal} (first : left.Rounds lhs) (second : right.Rounds rhs)
    {value : Literal} (computed : operator.value? lhs rhs = some value) :
    ∃ whole, operator.Combines left right whole ∧ whole.Rounds value := by
  cases first with
  | color =>
      cases second with
      | color => cases operator <;> cases computed
      | @number measure => cases measure <;> cases operator <;> cases computed
  | @number one _ _ here =>
      cases second with
      | color => cases one <;> cases operator <;> cases computed
      | @number other _ _ there =>
          cases operator with
          | add =>
              rw [value?, combine?_literal] at computed
              split at computed <;> cases computed
              rename_i same
              subst same
              exact ⟨_, .sum, .number (here.add there)⟩
          | subtract =>
              rw [value?, combine?_literal] at computed
              split at computed <;> cases computed
              rename_i same
              subst same
              exact ⟨_, .difference, .number (here.sub there)⟩
          | multiply =>
              rw [value?_multiply_literal] at computed
              split at computed
              · rename_i scalar
                cases computed
                subst scalar
                exact ⟨_, .multiple, .number (here.mul there)⟩
              · split at computed <;> cases computed
                rename_i scalar
                subst scalar
                exact ⟨_, .scaled, .number (here.mul there)⟩

theorem value?_of_combines {whole : Meaning} (combines : operator.Combines left right whole)
    {lhs rhs : Literal} (first : left.Rounds lhs) (second : right.Rounds rhs) :
    ∃ value, operator.value? lhs rhs = some value := by
  cases combines <;> cases first <;> cases second
  · rw [value?, combine?_literal, if_pos rfl]
    exact ⟨_, rfl⟩
  · rw [value?, combine?_literal, if_pos rfl]
    exact ⟨_, rfl⟩
  · rw [value?_multiply_literal, if_pos rfl]
    exact ⟨_, rfl⟩
  · rw [value?_multiply_literal, if_pos rfl]
    split <;> exact ⟨_, rfl⟩

end Operator

theorem Means.unique {sheet : Body} {place : Path} {expr : Expr} {meaning other : Meaning}
    (here : Means sheet place expr meaning) (there : Means sheet place expr other) :
    other = meaning := by
  induction here generalizing other with
  | literal =>
      cases there
      rfl
  | reference binds found means ih =>
      cases there with
      | reference again located same =>
          cases binds.unique again
          cases found.symm.trans located
          exact ih same
  | operation first second combines ihFirst ihSecond =>
      cases there with
      | operation left right same =>
          cases ihFirst left
          cases ihSecond right
          exact combines.unique same

def Computes (sheet : Body) (place : Path) (expr : Expr) (literal : Literal) : Prop :=
  ∃ meaning, Means sheet place expr meaning ∧
    (∀ other, Means sheet place expr other → other = meaning) ∧ meaning.Rounds literal

theorem computes_of_means {sheet : Body} {place : Path} {expr : Expr} {meaning : Meaning}
    {literal : Literal} (means : Means sheet place expr meaning) (rounds : meaning.Rounds literal) :
    Computes sheet place expr literal :=
  ⟨meaning, means, fun _ other => means.unique other, rounds⟩

section

variable {sheet : Body} {place : Path} {scopes : Scopes Literal}
  (reflects : sheet.Reflects (Computes sheet) place scopes)

include reflects

theorem Expr.computes_fold {expr : Expr} {value : Literal} (done : expr.fold scopes = .ok value) :
    Computes sheet place expr value := by
  induction expr generalizing value with
  | literal literal span =>
      cases done
      exact computes_of_means .literal literal.rounds_meaning
  | reference name span before =>
      unfold fold at done
      split at done
      · rename_i bound resolved
        cases done
        obtain ⟨source, assigned, binds, found, meaning, means, _, rounds⟩ :=
          reflects.bound name value resolved
        exact computes_of_means (.reference binds found means) rounds
      · cases done
  | operation operator lhs rhs span before ihl ihr =>
      obtain ⟨left, leftDone, done⟩ := ok_of_bind done
      obtain ⟨right, rightDone, done⟩ := ok_of_bind done
      obtain ⟨leftMeaning, first, _, leftRounds⟩ := ihl leftDone
      obtain ⟨rightMeaning, second, _, rightRounds⟩ := ihr rightDone
      split at done
      · rename_i result computed
        cases done
        obtain ⟨whole, combines, rounds⟩ := Operator.rounds_value? leftRounds rightRounds computed
        exact computes_of_means (.operation first second combines) rounds
      · cases done

theorem Expr.fold_of_means {expr : Expr} {meaning : Meaning}
    (means : Means sheet place expr meaning) :
    ∃ value, expr.fold scopes = .ok value := by
  induction expr generalizing meaning with
  | literal literal span => exact ⟨literal, rfl⟩
  | reference name span before =>
      cases means with
      | reference binds _ _ =>
          cases resolved : scopes.resolve? name with
          | none => exact absurd binds (reflects.unbound name resolved _)
          | some value => exact ⟨value, by rw [fold, resolved]⟩
  | operation operator lhs rhs span before ihl ihr =>
      cases means with
      | operation first second combines =>
          obtain ⟨left, leftDone⟩ := ihl first
          obtain ⟨right, rightDone⟩ := ihr second
          obtain ⟨_, _, leftUnique, leftRounds⟩ := Expr.computes_fold reflects leftDone
          obtain ⟨_, _, rightUnique, rightRounds⟩ := Expr.computes_fold reflects rightDone
          -- The operands fold to roundings of the one meaning that they have.
          rw [← leftUnique _ first] at leftRounds
          rw [← rightUnique _ second] at rightRounds
          obtain ⟨value, computed⟩ := Operator.value?_of_combines combines leftRounds rightRounds
          refine ⟨value, ?_⟩
          rw [fold, leftDone, rightDone]
          simp only [bind, Except.bind, computed]

end

def Item.value? : Item → Option Expr
  | .declaration declared => some declared.value
  | .assignment assigned => some assigned.value
  | .rule _ _ _ => none

inductive EvaluatedItem (sheet : Body) (place : Path) : Item → Item → Prop where
  | assignment {assigned : Assignment} {value : Literal}
      (computes : Computes sheet place assigned.value value) :
      EvaluatedItem sheet place (.assignment assigned) (.assignment (assigned.withValue value))
  | declaration {declared : Declaration} {value : Literal}
      (computes : Computes sheet place declared.value value) :
      EvaluatedItem sheet place (.declaration declared) (.declaration (declared.withValue value))
  | rule {selectors : List Selector} {inner evaluated : Body} {span : Span} :
      EvaluatedItem sheet place (.rule selectors inner span) (.rule selectors evaluated span)

namespace Body

-- By induction on the body, as for checking: with the place of its first item and scopes that
-- reflect the bindings there.
theorem evaluated_items {sheet body : Body} {base : Path} {start : Nat}
    {scopes after : Scopes Literal} {result : Body} (located : sheet.Located base start body)
    (reflects : sheet.Reflects (Computes sheet) (base ++ [start]) scopes)
    (done : body.folded scopes = .ok (after, result)) :
    (∀ index rest, Option.Rel (EvaluatedItem sheet (base ++ (start + index) :: rest))
      (body.item? (index :: rest)) (result.item? (index :: rest))) ∧
    sheet.Reflects (Computes sheet) (base ++ [start + body.toList.length]) after := by
  induction body generalizing base start scopes after result with
  | empty =>
      cases done
      exact ⟨rel_empty, reflects⟩
  | declaration declared later ih =>
      rw [folded_declaration] at done
      obtain ⟨value, here, done⟩ := ok_of_bind done
      obtain ⟨⟨_, rest⟩, there, done⟩ := ok_of_bind done
      cases done
      have locatedLater := Located.next (.declaration declared) located
      obtain ⟨items, after⟩ := ih locatedLater (reflects.declaration located) there
      constructor
      · exact rel_cons (.declaration (Expr.computes_fold reflects here)) rel_empty items
      · rw [Nat.add_right_comm] at after
        exact after
  | assignment assigned later ih =>
      rw [folded_assignment] at done
      obtain ⟨value, here, done⟩ := ok_of_bind done
      obtain ⟨⟨_, rest⟩, there, done⟩ := ok_of_bind done
      cases done
      have locatedLater := Located.next (.assignment assigned) located
      have computes := Expr.computes_fold reflects here
      obtain ⟨items, after⟩ := ih locatedLater (reflects.assignment located computes) there
      constructor
      · exact rel_cons (.assignment computes) rel_empty items
      · rw [Nat.add_right_comm] at after
        exact after
  | rule selectors inner span later ihInner ihLater =>
      rw [folded_rule] at done
      obtain ⟨⟨leaving, innerRest⟩, inside, done⟩ := ok_of_bind done
      obtain ⟨⟨_, rest⟩, there, done⟩ := ok_of_bind done
      cases done
      have locatedInner := Located.inner (.rule selectors inner span) located
      have locatedLater := Located.next (.rule selectors inner span) located
      obtain ⟨innerItems, within⟩ := ihInner locatedInner (reflects.enterFor located) inside
      rw [Nat.zero_add] at within
      obtain ⟨items, after⟩ := ihLater locatedLater (reflects.afterRule located within) there
      constructor
      · exact rel_cons .rule innerItems items
      · rw [Nat.add_right_comm] at after
        exact after

def Meant (sheet : Body) : Prop :=
  ∀ place item expr, sheet.item? place = some item → item.value? = some expr →
    ∃ meaning, Means sheet place expr meaning

theorem folded_of_meant {sheet body : Body} (meant : sheet.Meant) {base : Path} {start : Nat}
    {scopes : Scopes Literal} (located : sheet.Located base start body)
    (reflects : sheet.Reflects (Computes sheet) (base ++ [start]) scopes) :
    ∃ outcome, body.folded scopes = .ok outcome := by
  induction body generalizing base start scopes with
  | empty => exact ⟨_, rfl⟩
  | declaration declared later ih =>
      have found := Located.here (.declaration declared) located
      obtain ⟨meaning, means⟩ := meant _ _ declared.value found rfl
      obtain ⟨value, here⟩ := Expr.fold_of_means reflects means
      have locatedLater := Located.next (.declaration declared) located
      obtain ⟨_, there⟩ := ih locatedLater (reflects.declaration located)
      rw [folded_declaration]
      exact exists_ok_bind here (exists_ok_bind there ⟨_, rfl⟩)
  | assignment assigned later ih =>
      have found := Located.here (.assignment assigned) located
      obtain ⟨meaning, means⟩ := meant _ _ assigned.value found rfl
      obtain ⟨value, here⟩ := Expr.fold_of_means reflects means
      have computes := Expr.computes_fold reflects here
      have locatedLater := Located.next (.assignment assigned) located
      obtain ⟨_, there⟩ := ih locatedLater (reflects.assignment located computes)
      rw [folded_assignment]
      exact exists_ok_bind here (exists_ok_bind there ⟨_, rfl⟩)
  | rule selectors inner span later ihInner ihLater =>
      have locatedInner := Located.inner (.rule selectors inner span) located
      have locatedLater := Located.next (.rule selectors inner span) located
      have entered := reflects.enterFor located
      obtain ⟨⟨leaving, innerRest⟩, inside⟩ := ihInner locatedInner entered
      have within := (evaluated_items locatedInner entered inside).2
      rw [Nat.zero_add] at within
      obtain ⟨_, there⟩ := ihLater locatedLater (reflects.afterRule located within)
      rw [folded_rule]
      exact exists_ok_bind inside (exists_ok_bind there ⟨_, rfl⟩)

end Body

theorem Sheet.evaluated_items {sheet evaluated : Sheet} (done : sheet.evaluate = .ok evaluated)
    (place : Path) :
    Option.Rel (EvaluatedItem sheet.body place) (sheet.body.item? place)
      (evaluated.body.item? place) := by
  rw [evaluate_eq] at done
  cases folded : sheet.body.folded .initial with
  | error stopped =>
      rw [folded] at done
      cases done
  | ok outcome =>
      rw [folded] at done
      cases done
      cases place with
      | nil => exact .none
      | cons index rest =>
          have initial := Body.Reflects.initial sheet.body (Computes sheet.body)
          have items := (Body.evaluated_items sheet.body.located_self initial folded).1 index rest
          rw [List.nil_append, Nat.zero_add] at items
          exact items

theorem Sheet.meant_of_evaluate {sheet evaluated : Sheet} (done : sheet.evaluate = .ok evaluated) :
    sheet.body.Meant := by
  intro place item expr found valued
  have items := sheet.evaluated_items done place
  rw [found] at items
  generalize evaluated.body.item? place = result at items
  cases items with
  | some here =>
      cases here with
      | rule => cases valued
      | assignment computes | declaration computes =>
          cases valued
          obtain ⟨meaning, means, _⟩ := computes
          exact ⟨meaning, means⟩

/-- A sheet can be evaluated exactly if all its expressions have a meaning, and evaluation puts in
the place of each of them the one literal that is its meaning in 32 bits. -/
theorem Sheet.evaluate_exact (sheet : Sheet) :
    ((∃ evaluated, sheet.evaluate = .ok evaluated) ↔ sheet.body.Meant) ∧
    ∀ evaluated, sheet.evaluate = .ok evaluated → evaluated.span = sheet.span ∧
      ∀ place, Option.Rel (EvaluatedItem sheet.body place) (sheet.body.item? place)
        (evaluated.body.item? place) := by
  refine ⟨⟨?_, ?_⟩, ?_⟩
  · rintro ⟨evaluated, done⟩
    exact sheet.meant_of_evaluate done
  · intro meant
    have initial := Body.Reflects.initial sheet.body (Computes sheet.body)
    obtain ⟨⟨after, result⟩, folded⟩ := Body.folded_of_meant meant sheet.body.located_self initial
    rw [evaluate_eq, folded]
    exact ⟨_, rfl⟩
  · intro evaluated done
    refine ⟨?_, sheet.evaluated_items done⟩
    rw [evaluate_eq] at done
    cases folded : sheet.body.folded .initial <;> rw [folded] at done <;> cases done
    rfl

def Sheet.squaredSide : Sheet where
  body :=
    .assignment ⟨"@side", .literal (.scalar 65536) .null, .null⟩ <|
    .assignment ⟨"@area", .operation .multiply (.reference "@side" .null none)
      (.reference "@side" .null none) .null none, .null⟩ <|
    .rule [.tag "p"]
      (.declaration ⟨.width, .operation .multiply (.reference "@area" .null none)
        (.literal (.pixel 2) .null) .null none, .null, none⟩ .empty) .null .empty
  span := .null

/-- The square of a variable, which is 2^32 and so wraps to zero, and a width computed from it. -/
theorem Sheet.squaredSide_evaluates :
    ∃ evaluated assigned, squaredSide.evaluate = .ok evaluated ∧
      squaredSide.body.item? [1] = some (.assignment assigned) ∧
      evaluated.body.item? [1] = some (.assignment (assigned.withValue (.scalar 0))) ∧
      Means squaredSide.body [1] assigned.value (.number .scalar 4294967296) ∧
      Wraps 4294967296 0 := by
  obtain ⟨evaluated, done⟩ : ∃ evaluated, squaredSide.evaluate = .ok evaluated := ⟨_, rfl⟩
  have located : squaredSide.body.Located [] 0 squaredSide.body := Body.located_self _
  have binds : squaredSide.body.Binds "@side" [1] [0] :=
    (Body.binds_after_assignment located).mpr rfl
  have side : Means squaredSide.body [1] (.reference "@side" .null none) (.number .scalar 65536) :=
    .reference binds rfl .literal
  have area : Means squaredSide.body [1] (.operation .multiply (.reference "@side" .null none)
      (.reference "@side" .null none) .null none) (.number .scalar 4294967296) :=
    .operation side side .multiple
  have items := ((evaluate_exact squaredSide).2 evaluated done).2 [1]
  cases done
  cases items with
  | some here =>
      cases here with
      | assignment computes =>
          obtain ⟨meaning, _, unique, rounds⟩ := computes
          cases unique _ area
          generalize literal : Literal.scalar 0 = value at rounds
          cases rounds with
          | number wraps =>
              cases literal
              exact ⟨_, _, rfl, rfl, rfl, area, wraps⟩

end TypedStyle
