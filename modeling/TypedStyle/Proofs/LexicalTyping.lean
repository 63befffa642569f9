import Mathlib.Logic.ExistsUnique
import TypedStyle.Proofs.Binding
import TypedStyle.Proofs.Checking

/-!
Checking, described by places. The type of an expression at a place follows the bindings there,
and every node breaks a rule or not by the types of its parts. Checking attaches to every node
exactly the rule it breaks, and leaves a node that breaks none as it was.
-/

namespace TypedStyle

inductive HasType (sheet : Body) : Path → Expr → ValueType → Prop where
  | literal {place : Path} {value : Literal} {span : Span} :
      HasType sheet place (.literal value span) value.type
  | unbound {place : Path} {name : String} {span : Span} {before : Option Diagnostic}
      (free : ∀ source, ¬ sheet.Binds name place source) :
      HasType sheet place (.reference name span before) .undefined
  | bound {place source : Path} {name : String} {span : Span} {before : Option Diagnostic}
      {assigned : Assignment} {type : ValueType} (binds : sheet.Binds name place source)
      (found : sheet.item? source = some (.assignment assigned))
      (typed : HasType sheet source assigned.value type) :
      HasType sheet place (.reference name span before) type
  | scaled {place : Path} {operator : Operator} {lhs rhs : Expr} {span : Span}
      {before : Option Diagnostic} {type : ValueType} (first : HasType sheet place lhs .scalar)
      (second : HasType sheet place rhs type) :
      HasType sheet place (.operation operator lhs rhs span before) type
  | joined {place : Path} {operator : Operator} {lhs rhs : Expr} {span : Span}
      {before : Option Diagnostic} {type : ValueType} (first : HasType sheet place lhs type)
      (other : type ≠ .scalar) :
      HasType sheet place (.operation operator lhs rhs span before) type

inductive Violates : Operator → ValueType → ValueType → Fault → Prop where
  | color {operator : Operator} {lhs rhs : ValueType} (color : lhs = .color ∨ rhs = .color) :
      Violates operator lhs rhs .colorInOperation
  | mismatch {operator : Operator} {lhs rhs : ValueType}
      (additive : operator = .add ∨ operator = .subtract)
      (plain : lhs ≠ .color ∧ rhs ≠ .color) (apart : lhs ≠ rhs) :
      Violates operator lhs rhs .operandTypeMismatch
  | unscaled {lhs rhs : ValueType} (plain : lhs ≠ .color ∧ rhs ≠ .color)
      (unscaled : lhs ≠ .scalar ∧ rhs ≠ .scalar) :
      Violates .multiply lhs rhs .missingScalarOperand

/-- What a node carries after checking, given the faults that it has: the fault at the start of
its span, or else what it carried before. -/
inductive Carries (has : Fault → Prop) (span : Span) (before : Option Diagnostic) :
    Option Diagnostic → Prop where
  | fault {fault : Fault} (violated : has fault) : Carries has span before (some ⟨fault, span.start⟩)
  | kept (clean : ∀ fault, ¬ has fault) : Carries has span before before

inductive MarkedExpr (sheet : Body) (place : Path) : Expr → Expr → Prop where
  | literal {value : Literal} {span : Span} :
      MarkedExpr sheet place (.literal value span) (.literal value span)
  | reference {name : String} {span : Span} {before after : Option Diagnostic}
      (carries : Carries
        (fun fault => fault = .undefinedVariable name ∧ ∀ source, ¬ sheet.Binds name place source)
        span before after) :
      MarkedExpr sheet place (.reference name span before) (.reference name span after)
  | operation {operator : Operator} {lhs rhs left right : Expr} {span : Span}
      {before after : Option Diagnostic} (first : MarkedExpr sheet place lhs left)
      (second : MarkedExpr sheet place rhs right)
      (carries : Carries
        (fun fault => ∃ leftType rightType, HasType sheet place lhs leftType ∧
          HasType sheet place rhs rightType ∧ Violates operator leftType rightType fault)
        span before after) :
      MarkedExpr sheet place (.operation operator lhs rhs span before)
        (.operation operator left right span after)

/-- An item at a place, before and after checking. What is inside a rule stands at places of its
own. -/
inductive MarkedItem (sheet : Body) (place : Path) : Item → Item → Prop where
  | assignment {assigned : Assignment} {value : Expr}
      (marked : MarkedExpr sheet place assigned.value value) :
      MarkedItem sheet place (.assignment assigned) (.assignment { assigned with value })
  | declaration {declared : Declaration} {value : Expr} {after : Option Diagnostic}
      (marked : MarkedExpr sheet place declared.value value)
      (carries : Carries
        (fun fault => ∃ type, HasType sheet place declared.value type ∧
          type ∉ declared.property.allowed ∧ fault = .typeNotAllowed type declared.property.name)
        declared.span declared.diagnostic after) :
      MarkedItem sheet place (.declaration declared)
        (.declaration { declared with value, diagnostic := after })
  | rule {selectors : List Selector} {inner checked : Body} {span : Span} :
      MarkedItem sheet place (.rule selectors inner span) (.rule selectors checked span)

theorem HasType.unique {sheet : Body} {place : Path} {expr : Expr} {type other : ValueType}
    (here : HasType sheet place expr type) (there : HasType sheet place expr other) :
    other = type := by
  induction here generalizing other with
  | literal =>
      cases there
      rfl
  | unbound free =>
      cases there with
      | unbound _ => rfl
      | bound binds _ _ => exact absurd binds (free _)
  | bound binds found typed ih =>
      cases there with
      | unbound free => exact absurd binds (free _)
      | bound again located same =>
          cases binds.unique again
          cases found.symm.trans located
          exact ih same
  | scaled first second ihFirst ihSecond =>
      cases there with
      | scaled _ same => exact ihSecond same
      | joined same apart => exact absurd (ihFirst same) apart
  | joined first apart ih =>
      cases there with
      | scaled same _ => exact absurd (ih same).symm apart
      | joined same _ => exact ih same

theorem Operator.violation?_eq_some {operator : Operator} {lhs rhs : ValueType} {fault : Fault} :
    operator.violation? lhs rhs = some fault ↔ Violates operator lhs rhs fault := by
  constructor
  · intro violated
    unfold violation? at violated
    split at violated
    · rename_i color
      cases violated
      exact .color color
    · rename_i plain
      rw [not_or] at plain
      cases operator with
      | add | subtract =>
          dsimp only at violated
          split at violated <;> cases violated
          rename_i apart
          exact .mismatch (by simp) plain apart
      | multiply =>
          dsimp only at violated
          split at violated <;> cases violated
          rename_i unscaled
          exact .unscaled plain unscaled
  · intro violated
    cases violated with
    | color color => exact if_pos color
    | mismatch additive plain apart =>
        unfold violation?
        rw [if_neg (not_or.mpr plain)]
        rcases additive with rfl | rfl <;> exact if_pos apart
    | unscaled plain unscaled =>
        unfold violation?
        rw [if_neg (not_or.mpr plain)]
        exact if_pos unscaled

theorem carries_annotate {has : Fault → Prop} {violation? : Option Fault}
    (decides : ∀ fault, violation? = some fault ↔ has fault) (span : Span)
    (before : Option Diagnostic) : Carries has span before (annotate violation? span before) := by
  cases violation? with
  | none =>
      apply Carries.kept
      intro fault violated
      cases (decides fault).mpr violated
  | some fault => exact .fault ((decides fault).mp rfl)

section

variable {sheet : Body} {place : Path} {scopes : Scopes ValueType}

theorem Expr.hasType_typeIn (reflects : sheet.Reflects (HasType sheet) place scopes) (expr : Expr) :
    HasType sheet place expr (expr.typeIn scopes) := by
  induction expr with
  | literal value span => exact .literal
  | reference name span before =>
      cases resolved : scopes.resolve? name with
      | none =>
          simp only [typeIn, resolved, Option.getD_none]
          exact .unbound (reflects.unbound name resolved)
      | some type =>
          obtain ⟨source, assigned, binds, found, typed⟩ := reflects.bound name type resolved
          simp only [typeIn, resolved, Option.getD_some]
          exact .bound binds found typed
  | operation operator lhs rhs span before ihl ihr =>
      unfold typeIn Operator.resultType
      split
      · rename_i scalar
        exact .scaled (scalar ▸ ihl) ihr
      · rename_i other
        exact .joined ihl other

theorem Expr.marked_check (reflects : sheet.Reflects (HasType sheet) place scopes) (expr : Expr) :
    MarkedExpr sheet place expr (expr.check scopes) := by
  induction expr with
  | literal value span => exact .literal
  | reference name span before =>
      apply MarkedExpr.reference
      apply carries_annotate
      intro fault
      unfold Scopes.isBound
      cases resolved : scopes.resolve? name with
      | none =>
          have free := reflects.unbound name resolved
          simp [free, eq_comm]
      | some type =>
          obtain ⟨source, _, binds, _⟩ := reflects.bound name type resolved
          have bound : ¬ ∀ source, ¬ sheet.Binds name place source := fun free => free source binds
          simp [bound]
  | operation operator lhs rhs span before ihl ihr =>
      apply MarkedExpr.operation ihl ihr
      apply carries_annotate
      intro fault
      rw [Operator.violation?_eq_some]
      constructor
      · intro violated
        exact ⟨_, _, lhs.hasType_typeIn reflects, rhs.hasType_typeIn reflects, violated⟩
      · rintro ⟨_, _, left, right, violated⟩
        rw [left.unique (lhs.hasType_typeIn reflects), right.unique (rhs.hasType_typeIn reflects)]
        exact violated

theorem Declaration.marked_check (reflects : sheet.Reflects (HasType sheet) place scopes)
    (declared : Declaration) :
    MarkedItem sheet place (.declaration declared) (.declaration (declared.check scopes)) := by
  have typed := declared.value.hasType_typeIn reflects
  apply MarkedItem.declaration (declared.value.marked_check reflects)
  apply carries_annotate
  intro fault
  by_cases allowed : declared.value.typeIn scopes ∈ declared.property.allowed
  · rw [if_pos (Property.allows_iff.mpr allowed)]
    constructor
    · intro impossible
      cases impossible
    · rintro ⟨type, same, outside, _⟩
      cases typed.unique same
      exact absurd allowed outside
  · rw [if_neg (mt Property.allows_iff.mp allowed)]
    constructor
    · intro violated
      exact ⟨_, typed, allowed, (Option.some.inj violated).symm⟩
    · rintro ⟨type, same, _, rfl⟩
      rw [typed.unique same]

end

structure Visited (sheet : Body) (place : Path) (item checked : Item) : Prop where
  scopes : ∃ scopes, sheet.Reflects (HasType sheet) place scopes
  marked : MarkedItem sheet place item checked

namespace Body

theorem rel_cons {relation : Path → Item → Item → Prop} {base : Path} {start : Nat}
    {item checked : Item} {later after : Body} (here : relation (base ++ [start]) item checked)
    (inside : ∀ index rest, Option.Rel (relation (base ++ [start] ++ (0 + index) :: rest))
      (item.inner.item? (index :: rest)) (checked.inner.item? (index :: rest)))
    (there : ∀ index rest, Option.Rel (relation (base ++ (start + 1 + index) :: rest))
      (later.item? (index :: rest)) (after.item? (index :: rest))) (index : Nat) (rest : Path) :
    Option.Rel (relation (base ++ (start + index) :: rest))
      ((Body.cons item later).item? (index :: rest))
      ((Body.cons checked after).item? (index :: rest)) := by
  cases index with
  | zero =>
      cases rest with
      | nil =>
          rw [item?_cons_zero, item?_cons_zero]
          exact .some here
      | cons next rest =>
          rw [item?_cons_inner, item?_cons_inner]
          simpa using inside next rest
  | succ index =>
      rw [item?_cons_succ, item?_cons_succ, ← Nat.add_assoc, Nat.add_right_comm]
      exact there index rest

theorem rel_empty {relation : Path → Item → Item → Prop} {base : Path} {start : Nat} (index : Nat)
    (rest : Path) : Option.Rel (relation (base ++ (start + index) :: rest))
      (empty.item? (index :: rest)) (empty.item? (index :: rest)) := by
  rw [item?_empty]
  exact .none

-- By induction on the body, with the place of its first item and scopes that reflect the bindings
-- there.
theorem visited_check {sheet body : Body} {base : Path} {start : Nat} {scopes : Scopes ValueType}
    (located : sheet.Located base start body)
    (reflects : sheet.Reflects (HasType sheet) (base ++ [start]) scopes) :
    (∀ index rest, Option.Rel (Visited sheet (base ++ (start + index) :: rest))
      (body.item? (index :: rest)) ((body.check scopes).item? (index :: rest))) ∧
    sheet.Reflects (HasType sheet) (base ++ [start + body.toList.length])
      (body.typesAfter scopes) := by
  induction body generalizing base start scopes with
  | empty => exact ⟨rel_empty, reflects⟩
  | declaration declared later ih =>
      have locatedLater := Located.next (.declaration declared) located
      obtain ⟨there, after⟩ := ih locatedLater (reflects.declaration located)
      constructor
      · have marked := declared.marked_check reflects
        exact rel_cons ⟨⟨scopes, reflects⟩, marked⟩ rel_empty there
      · rw [Nat.add_right_comm] at after
        exact after
  | assignment assigned later ih =>
      have locatedLater := Located.next (.assignment assigned) located
      have typed := assigned.value.hasType_typeIn reflects
      obtain ⟨there, after⟩ := ih locatedLater (reflects.assignment located typed)
      constructor
      · have marked := MarkedItem.assignment (assigned.value.marked_check reflects)
        exact rel_cons ⟨⟨scopes, reflects⟩, marked⟩ rel_empty there
      · rw [Nat.add_right_comm] at after
        exact after
  | rule selectors inner span later ihInner ihLater =>
      have locatedInner := Located.inner (.rule selectors inner span) located
      have locatedLater := Located.next (.rule selectors inner span) located
      obtain ⟨inside, within⟩ := ihInner locatedInner (reflects.enterFor located)
      rw [Nat.zero_add] at within
      obtain ⟨there, after⟩ := ihLater locatedLater (reflects.afterRule located within)
      rw [check_rule, typesAfter_rule]
      constructor
      · exact rel_cons ⟨⟨scopes, reflects⟩, .rule⟩ inside there
      · rw [Nat.add_right_comm] at after
        exact after

end Body

theorem Sheet.visited_check (sheet : Sheet) (place : Path) :
    Option.Rel (Visited sheet.body place) (sheet.body.item? place)
      (sheet.check.body.item? place) := by
  cases place with
  | nil => exact .none
  | cons index rest =>
      have initial := Body.Reflects.initial sheet.body (HasType sheet.body)
      have visited := (Body.visited_check sheet.body.located_self initial).1 index rest
      rw [List.nil_append, Nat.zero_add] at visited
      exact visited

theorem Sheet.exists_hasType_of_item (sheet : Sheet) {place : Path} {item : Item}
    (found : sheet.body.item? place = some item) (expr : Expr) :
    ∃ type, HasType sheet.body place expr type := by
  have visited := sheet.visited_check place
  rw [found] at visited
  generalize sheet.check.body.item? place = checked at visited
  cases visited with
  | some here =>
      obtain ⟨scopes, reflects⟩ := here.scopes
      exact ⟨_, expr.hasType_typeIn reflects⟩

theorem Sheet.exists_hasType (sheet : Sheet) (place : Path) (expr : Expr) :
    ∃ type, HasType sheet.body place expr type := by
  induction expr with
  | literal value span => exact ⟨_, .literal⟩
  | reference name span before =>
      by_cases bound : ∃ source, sheet.body.Binds name place source
      · obtain ⟨source, binds⟩ := bound
        obtain ⟨assigned, found⟩ := binds.assigned
        obtain ⟨type, typed⟩ := sheet.exists_hasType_of_item found assigned.value
        exact ⟨type, .bound binds found typed⟩
      · exact ⟨_, .unbound fun source binds => bound ⟨source, binds⟩⟩
  | operation operator lhs rhs span before ihl ihr =>
      obtain ⟨left, first⟩ := ihl
      obtain ⟨right, second⟩ := ihr
      by_cases scalar : left = .scalar
      · subst scalar
        exact ⟨right, .scaled first second⟩
      · exact ⟨left, .joined first scalar⟩

/-- By lexical scoping every expression has one type at a place of the sheet, and checking marks
every node with exactly the rule that it breaks by these types. -/
theorem Sheet.check_lexical (sheet : Sheet) :
    sheet.check.span = sheet.span ∧
    (∀ place expr, ∃! type, HasType sheet.body place expr type) ∧
    ∀ place, Option.Rel (MarkedItem sheet.body place) (sheet.body.item? place)
      (sheet.check.body.item? place) := by
  refine ⟨rfl, ?_, ?_⟩
  · intro place expr
    obtain ⟨type, typed⟩ := sheet.exists_hasType place expr
    exact ⟨type, typed, fun other same => typed.unique same⟩
  · intro place
    have visited := sheet.visited_check place
    generalize sheet.body.item? place = item, sheet.check.body.item? place = checked at visited ⊢
    cases visited with
    | some here => exact .some here.marked
    | none => exact .none

end TypedStyle
