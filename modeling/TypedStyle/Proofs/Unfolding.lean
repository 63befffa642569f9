import Mathlib.Logic.Function.Iterate
import TypedStyle.Proofs.Locality

/-!
Reading comes to an end. The reads of the language call each other; `Call.step` says what each of
them does in terms of the calls in it and sets no bound to them. A call ends if finitely many layers
of calls settle its outcome, whatever stands for the calls below. Every layer passes a token or
leads to calls of a lower rank, so four layers for each token left are enough.
-/

namespace TypedStyle

open Grammar (language)

namespace Read

inductive Call where
  | expr (power : Power)
  | extend (power : Power) (left : Expr)
  | selectors
  | assignment
  | declaration
  | rule
  | bodyItem
  | body
  | sheetItem
  | sheet

namespace Call

abbrev Result : Call → Type
  | .expr _ | .extend _ _ => Expr
  | .selectors => List Selector
  | .assignment => Assignment
  | .declaration => Declaration
  | .rule | .bodyItem | .sheetItem => Item
  | .body | .sheet => Body

end Call

abbrev Calls := (call : Call) → Read call.Result

namespace Call

/-- One layer of each read: the calls in it are left to `calls`. -/
def step (calls : Calls) : Calls
  | .expr power => do
      let left ← operandOf language (calls (.expr .lowest))
      calls (.extend power left)
  | .extend power left => do
      let kind := (← current).kind
      if (language.power kind).rank ≤ power.rank then return left
      else if language.joins kind then
        let whole ← operationOf (calls (.expr (language.power kind))) left
        calls (.extend power whole)
      else unexpected
  | .selectors => do
      let first ← selector
      if (← current).kind = .comma then
        let _ ← advance
        return first :: (← calls .selectors)
      else return [first]
  | .assignment => do
      let name ← expect .variableName
      let _ ← expect .colon
      let value ← calls (.expr .lowest)
      let _ ← expect .semicolon
      return { name := name.text, value, span := (← get).spanFrom name.span.start }
  | .declaration => do
      let name ← expect .identifier
      match Property.ofName? name.text with
      | none => reject ⟨.unknownProperty name.text, name.span.start⟩
      | some property =>
          let _ ← expect .colon
          let value ← calls (.expr .lowest)
          let _ ← expect .semicolon
          return { property, value, span := (← get).spanFrom name.span.start, diagnostic := none }
  | .rule => do
      let start := (← get).position
      let selectors ← calls .selectors
      let _ ← expect .openCurly
      let body ← calls .body
      let _ ← expect .closeCurly
      return .rule selectors body ((← get).spanFrom start)
  | .bodyItem => do
      let cursor ← get
      match cursor.current.kind with
      | .variableName => return .assignment (← calls .assignment)
      | .identifier =>
          if cursor.following = .colon then return .declaration (← calls .declaration)
          else calls .rule
      | _ => calls .rule
  | .body => do
      match (← current).kind with
      | .closeCurly | .eof => return .empty
      | _ =>
          let item ← calls .bodyItem
          return .cons item (← calls .body)
  | .sheetItem => do
      match (← current).kind with
      | .variableName => return .assignment (← calls .assignment)
      | _ => calls .rule
  | .sheet => do
      if (← get).atEnd then return .empty
      else
        let item ← calls .sheetItem
        return .cons item (← calls .sheet)

def read : Calls
  | .expr power => Read.expr language power
  | .extend power left => fun cursor => extendWithin language cursor.left power left cursor
  | .selectors => Read.selectors
  | .assignment => Read.assignment language
  | .declaration => Read.declaration language
  | .rule => Read.rule language
  | .bodyItem => Read.bodyItem language
  | .body => Read.body language
  | .sheetItem => Read.sheetItem language
  | .sheet => sheetBody language

/-- What is read is settled by the first `depth` layers of calls: whatever stands for the calls
below them, it is the same. -/
def EndsWithin (depth : Nat) (call : Call) (cursor : Cursor) : Prop :=
  ∀ calls, step^[depth] calls call cursor = call.read cursor

def opens : Call → List Call
  | .expr _ | .extend _ _ | .selectors | .assignment | .declaration => []
  | .rule => [.selectors]
  | .bodyItem => [.assignment, .declaration, .rule]
  | .sheetItem => [.assignment, .rule]
  | .body => [.bodyItem]
  | .sheet => [.sheetItem]

def rank : Call → Nat
  | .expr _ | .extend _ _ | .selectors | .assignment | .declaration => 0
  | .rule => 1
  | .bodyItem | .sheetItem => 2
  | .body | .sheet => 3

theorem rank_lt (call : Call) : call.rank < 4 := by
  cases call <;> simp [rank]

def Fits : Call → Cursor → Prop
  | .extend power left, cursor => ∃ before, Extendable power before left.bare cursor.current.kind
  | _, _ => True

theorem of_opens {call other : Call} (opened : other ∈ call.opens) :
    other.rank < call.rank ∧ ∀ cursor, other.Fits cursor := by
  cases call <;> simp only [opens, List.mem_cons, List.not_mem_nil, or_false] at opened
  case rule | body | sheet =>
    cases opened
    exact ⟨by decide, fun _ => trivial⟩
  case bodyItem => rcases opened with rfl | rfl | rfl <;> exact ⟨by decide, fun _ => trivial⟩
  case sheetItem => rcases opened with rfl | rfl <;> exact ⟨by decide, fun _ => trivial⟩

end Call

/-! ### What a layer takes from the calls in it -/

variable {Result Next : Type} {cursor : Cursor}

def Same (read other : Read Result) (cursor : Cursor) : Prop := read cursor = other cursor

namespace Same

theorem refl (read : Read Result) (cursor : Cursor) : Same read read cursor := rfl

theorem bind {first other : Read Result} {next otherNext : Result → Read Next}
    {middle : List Token → Result → Cursor → Prop} (ready : cursor.Ready)
    (here : Same first other cursor) (reaches : Reaches other cursor middle)
    (there : ∀ tokens result after, after.Ready → cursor.Passes tokens after →
      middle tokens result after → Same (next result) (otherNext result) after) :
    Same (first >>= next) (other >>= otherNext) cursor := by
  unfold Same Reaches at *
  rw [bind_eq, bind_eq, here]
  cases step : other cursor with
  | error stop after => rfl
  | ok result after =>
      rw [step] at reaches
      obtain ⟨tokens, passes, holds⟩ := reaches
      exact there tokens result after (ready.of_passes passes) passes holds

theorem bind_left {first other : Read Result} (here : Same first other cursor)
    (next : Result → Read Next) : Same (first >>= next) (other >>= next) cursor := by
  unfold Same at *
  rw [bind_eq, bind_eq, here]

end Same

theorem same_current_bind {next otherNext : Token → Read Next}
    (there : Same (next cursor.current) (otherNext cursor.current) cursor) :
    Same (current >>= next) (current >>= otherNext) cursor := there

theorem same_get_bind {next otherNext : Cursor → Read Next}
    (there : Same (next cursor) (otherNext cursor) cursor) :
    Same (get >>= next) (get >>= otherNext) cursor := there

theorem same_advance_bind {next otherNext : Token → Read Next} (ready : cursor.Ready)
    (inside : cursor.current.kind ≠ .eof)
    (there : ∀ token after, after.Ready → after.left.length < cursor.left.length →
      Same (next token) (otherNext token) after) :
    Same (advance >>= next) (advance >>= otherNext) cursor := by
  apply (Same.refl advance cursor).bind ready (reaches_advance ready inside)
  rintro _ token after readyNext passes rfl
  exact there token after readyNext passes.length_lt

theorem same_expect_bind {kind : TokenKind} {next otherNext : Token → Read Next}
    (ready : cursor.Ready) (inside : kind ≠ .eof)
    (there : ∀ token after, after.Ready → after.left.length < cursor.left.length →
      Same (next token) (otherNext token) after) :
    Same (expect kind >>= next) (expect kind >>= otherNext) cursor := by
  apply (Same.refl (expect kind) cursor).bind ready (reaches_expect ready inside)
  rintro _ token after readyNext passes ⟨rfl, _⟩
  exact there token after readyNext passes.length_lt

theorem same_operandOf {inner other : Read Expr} (ready : cursor.Ready)
    (inside : ∀ start : Cursor, start.Ready → start.left.length < cursor.left.length →
      Same inner other start) :
    Same (operandOf language inner) (operandOf language other) cursor := by
  apply same_current_bind
  split
  · exact .refl _ cursor
  · rename_i starts
    have paren := Grammar.operand?_grouping starts
    apply same_advance_bind ready (by simp [paren])
    intro _ after readyInner fewer
    exact (inside after readyInner fewer).bind_left _
  · exact .refl _ cursor

theorem same_operationOf {right other : Read Expr} (ready : cursor.Ready) (lhs : Expr)
    (sign : cursor.current.kind ≠ .eof)
    (inside : ∀ start : Cursor, start.Ready → start.left.length < cursor.left.length →
      Same right other start) :
    Same (operationOf right lhs) (operationOf other lhs) cursor := by
  apply same_current_bind
  split
  · apply same_advance_bind ready sign
    intro _ after readyRight fewer
    exact (inside after readyRight fewer).bind_left _
  · exact .refl _ cursor

-- An assignment and a declaration go on in the same way after their names.
theorem same_value {value other : Read Expr} {finish : Expr → Read Next} (ready : cursor.Ready)
    (inside : ∀ start : Cursor, start.Ready → start.left.length < cursor.left.length →
      Same value other start) :
    Same (do
      let _ ← expect .colon
      let value ← value
      let _ ← expect .semicolon
      finish value) (do
      let _ ← expect .colon
      let value ← other
      let _ ← expect .semicolon
      finish value) cursor := by
  apply same_expect_bind ready (by decide)
  intro _ after readyValue fewer
  exact (inside after readyValue fewer).bind_left _

theorem same_rule {heads : Read (List Selector)} {inner other : Read Body} (ready : cursor.Ready)
    (first : Same heads selectors cursor)
    (inside : ∀ start : Cursor, start.Ready → start.left.length < cursor.left.length →
      Same inner other start) :
    Same (do
      let start := (← get).position
      let selectors ← heads
      let _ ← expect .openCurly
      let body ← inner
      let _ ← expect .closeCurly
      return .rule selectors body ((← get).spanFrom start)) (ruleOf other) cursor := by
  apply same_get_bind
  apply first.bind ready (reaches_selectorsWithin cursor.left ready)
  intro _ _ afterHeads readyOpen passes _
  have counted := passes.length_left
  apply same_expect_bind readyOpen (by decide)
  intro _ afterOpen readyInner fewer
  exact (inside afterOpen readyInner (by omega)).bind_left _

structure Calls.Agree (calls : Calls) (call : Call) (cursor : Cursor) : Prop where
  here : ∀ other ∈ call.opens, Same (calls other) other.read cursor
  later : ∀ other start, Cursor.Ready start → other.Fits start →
    start.left.length < cursor.left.length → Same (calls other) other.read start

namespace Calls.Agree

variable {calls : Calls}

open Call (step read)

theorem expr {power : Power} (agree : calls.Agree (.expr power) cursor) (ready : cursor.Ready) :
    Same (step calls (.expr power)) (step read (.expr power)) cursor := by
  have operand : Same (operandOf language (calls (.expr .lowest)))
      (operandOf language (read (.expr .lowest))) cursor := by
    apply same_operandOf ready
    intro start readyStart fewer
    exact agree.later (.expr .lowest) start readyStart trivial fewer
  apply operand.bind ready (reaches_operandOf ready fun _ ready => reaches_expr ready)
  intro tokens left after readyRest passes factor
  have positive := factor.length_pos
  have counted := passes.length_left
  exact agree.later (.extend power left) after readyRest ⟨tokens, .of_factor factor.derives⟩
    (by omega)

theorem extend {power : Power} {left : Expr} (agree : calls.Agree (.extend power left) cursor)
    (ready : cursor.Ready) (fits : (Call.extend power left).Fits cursor) :
    Same (step calls (.extend power left)) (step read (.extend power left)) cursor := by
  obtain ⟨before, extendable⟩ := fits
  apply same_current_bind
  dsimp only
  split
  · exact .refl _ cursor
  rename_i tight
  split
  · rename_i joins
    have second (start : Cursor) (ready : start.Ready) :=
      (reaches_within start.left).1 (language.power cursor.current.kind) start ready
    obtain ⟨_, found⟩ := Grammar.operator?_of_joins joins
    have sign := Grammar.joins_ne_eof joins
    have starts := reaches_operationOf ready found sign left second
    have extended := reaches_extension ready extendable joins (Nat.lt_of_not_le tight) second
    have operation := same_operationOf ready left sign fun start readyStart fewer =>
      agree.later (.expr (language.power cursor.current.kind)) start readyStart trivial fewer
    apply operation.bind ready (starts.and extended)
    rintro _ whole after readyRest passes ⟨⟨tokens, _, rfl, _⟩, extended, _⟩
    have counted := passes.length_left
    rw [List.length_cons] at counted
    exact agree.later (.extend power whole) after readyRest ⟨_, extended⟩ (by omega)
  · exact .refl _ cursor

theorem selectors (agree : calls.Agree .selectors cursor) (ready : cursor.Ready) :
    Same (step calls .selectors) (step read .selectors) cursor := by
  apply (Same.refl selector cursor).bind ready (reaches_selector ready)
  rintro _ selector after readyNext passes ⟨token, rfl, _⟩
  have fewer := passes.length_lt
  apply same_current_bind
  split
  · rename_i divides
    apply same_advance_bind readyNext (by simp [divides])
    intro _ afterComma readyLater fewerStill
    have rest := agree.later .selectors afterComma readyLater trivial (by omega)
    exact rest.bind_left _
  · exact .refl _ after

theorem assignment (agree : calls.Agree .assignment cursor) (ready : cursor.Ready) :
    Same (step calls .assignment) (step read .assignment) cursor := by
  apply same_expect_bind ready (by decide)
  intro _ afterName readyColon fewer
  apply same_value readyColon
  intro start readyStart fewerStill
  exact agree.later (.expr .lowest) start readyStart trivial (by omega)

theorem declaration (agree : calls.Agree .declaration cursor) (ready : cursor.Ready) :
    Same (step calls .declaration) (step read .declaration) cursor := by
  apply same_expect_bind ready (by decide)
  intro _ afterName readyColon fewer
  split
  · exact .refl _ afterName
  · apply same_value readyColon
    intro start readyStart fewerStill
    exact agree.later (.expr .lowest) start readyStart trivial (by omega)

theorem rule (agree : calls.Agree .rule cursor) (ready : cursor.Ready) :
    Same (step calls .rule) (step read .rule) cursor := by
  apply same_rule ready (agree.here .selectors List.mem_cons_self)
  intro start readyStart fewer
  exact agree.later .body start readyStart trivial fewer

theorem bodyItem (agree : calls.Agree .bodyItem cursor) :
    Same (step calls .bodyItem) (step read .bodyItem) cursor := by
  have rule := agree.here .rule (by simp [Call.opens])
  apply same_get_bind
  split
  · exact (agree.here .assignment (by simp [Call.opens])).bind_left _
  · split
    · exact (agree.here .declaration (by simp [Call.opens])).bind_left _
    · exact rule
  · exact rule

theorem sheetItem (agree : calls.Agree .sheetItem cursor) :
    Same (step calls .sheetItem) (step read .sheetItem) cursor := by
  apply same_current_bind
  split
  · exact (agree.here .assignment (by simp [Call.opens])).bind_left _
  · exact agree.here .rule (by simp [Call.opens])

theorem body (agree : calls.Agree .body cursor) (ready : cursor.Ready) :
    Same (step calls .body) (step read .body) cursor := by
  apply same_current_bind
  split
  · exact .refl _ cursor
  · exact .refl _ cursor
  · have item := agree.here .bodyItem List.mem_cons_self
    apply item.bind ready
      (reaches_bodyItemOf ready fun cursor ready => reaches_bodyWithin cursor.left ready)
    intro tokens _ after readyLater passes heads
    have positive := heads.length_pos
    have counted := passes.length_left
    exact (agree.later .body after readyLater trivial (by omega)).bind_left _

theorem sheet (agree : calls.Agree .sheet cursor) (ready : cursor.Ready) :
    Same (step calls .sheet) (step read .sheet) cursor := by
  apply same_get_bind
  split
  · exact .refl _ cursor
  · have item := agree.here .sheetItem List.mem_cons_self
    apply item.bind ready (reaches_sheetItem ready)
    intro tokens _ after readyLater passes heads
    have positive := heads.length_pos
    have counted := passes.length_left
    exact (agree.later .sheet after readyLater trivial (by omega)).bind_left _

/-- A layer asks for the calls that it opens, and otherwise only where fewer tokens are left. -/
theorem same_step {call : Call} (agree : calls.Agree call cursor) (ready : cursor.Ready)
    (fits : call.Fits cursor) : Same (step calls call) (step read call) cursor := by
  cases call with
  | expr power => exact agree.expr ready
  | extend power left => exact agree.extend ready fits
  | selectors => exact agree.selectors ready
  | assignment => exact agree.assignment ready
  | declaration => exact agree.declaration ready
  | rule => exact agree.rule ready
  | bodyItem => exact agree.bodyItem
  | body => exact agree.body ready
  | sheetItem => exact agree.sheetItem
  | sheet => exact agree.sheet ready

end Calls.Agree

def Call.within (bound : List Token) : Calls
  | .expr power => exprWithin language bound power
  | .extend power left => extendWithin language bound power left
  | .selectors => selectorsWithin bound
  | .rule => ruleOf (bodyWithin language bound)
  | .bodyItem => bodyItemOf language (bodyWithin language bound)
  | .body => bodyWithin language bound
  | .sheet => sheetWithin language bound
  | .assignment => Read.assignment language
  | .declaration => Read.declaration language
  | .sheetItem => Read.sheetItem language

theorem Local.same {read : Read Result} {front : List Token} (reads : List Token → Read Result)
    (bounded : ∀ more, Local read (reads more) more.length cursor front) :
    Same read (fun cursor => reads cursor.left cursor) cursor := by
  obtain ⟨moves, agrees⟩ := bounded cursor.left
  obtain ⟨tokens, passes⟩ := moves
  have whole := agrees _ cursor.ahead _ passes passes.left (Nat.lt_succ_self _)
  unfold final at whole
  have outcome : reads cursor.left cursor = read cursor := by
    cases step : read cursor with
    | ok result after =>
        rw [step] at whole
        exact whole
    | error stop after =>
        rw [step] at whole
        exact whole
  exact outcome.symm

theorem same_bodyWithin {bound : List Token} (ready : cursor.Ready)
    (enough : cursor.left.length ≤ bound.length) :
    Same (bodyWithin language bound) (body language) cursor :=
  Local.same (bodyWithin language) fun more => local_bodyWithin bound more ready enough

namespace Call

-- The braces of a rule are tokens of their own, so its body may be bounded by one token less.
theorem same_within_rule {bound : List Token} (ready : cursor.Ready)
    (enough : cursor.left.length ≤ bound.length + 1) :
    Same (within bound .rule) (read .rule) cursor := by
  apply same_rule ready (.refl Read.selectors cursor)
  intro start readyStart fewer
  exact same_bodyWithin readyStart (by omega)

theorem same_within_bodyItem {bound : List Token} (ready : cursor.Ready)
    (enough : cursor.left.length ≤ bound.length + 1) :
    Same (within bound .bodyItem) (read .bodyItem) cursor := by
  have rule := same_within_rule ready enough
  apply same_get_bind
  split
  · exact .refl _ cursor
  · split
    · exact .refl _ cursor
    · exact rule
  · exact rule

/-- A bound that allows for the tokens left is never met. -/
theorem same_within {bound : List Token} {call : Call} (ready : cursor.Ready)
    (fits : call.Fits cursor) (enough : cursor.left.length ≤ bound.length) :
    Same (within bound call) call.read cursor := by
  cases call with
  | expr power =>
      exact Local.same (fun more => exprWithin language more power) fun more =>
        (local_within bound).1 more power cursor ready enough
  | extend power left =>
      obtain ⟨before, extendable⟩ := fits
      exact Local.same (fun more => extendWithin language more power left) fun more =>
        (local_within bound).2 more power cursor before left ready extendable enough
  | selectors =>
      exact Local.same selectorsWithin fun more =>
        local_selectorsWithin bound more ready enough fun _ => local_selector ready
  | assignment => exact .refl _ cursor
  | declaration => exact .refl _ cursor
  | rule => exact same_within_rule ready (by omega)
  | bodyItem => exact same_within_bodyItem ready (by omega)
  | body => exact same_bodyWithin ready enough
  | sheetItem => exact .refl _ cursor
  | sheet =>
      exact Local.same (sheetWithin language) fun more =>
        local_sheetWithin bound more ready enough

theorem agree_within {call : Call}
    (here : ∀ other ∈ call.opens, Same (within cursor.ahead other) other.read cursor) :
    (within cursor.ahead).Agree call cursor where
  here := here
  later _ _ readyStart fits fewer := same_within readyStart fits (Nat.le_of_lt_succ fewer)

/-- What is read is one layer over what is read. -/
theorem same_read {call : Call} (ready : cursor.Ready) (fits : call.Fits cursor) :
    Same call.read (step read call) cursor := by
  -- The reads with a bound of their own spend one token of it on a layer.
  have layer (opened : ∀ other ∈ call.opens, Same (within cursor.ahead other) other.read cursor) :
      Same (step (within cursor.ahead) call) (step read call) cursor :=
    (agree_within opened).same_step ready fits
  cases call with
  | expr power => exact layer (List.forall_mem_nil _)
  | extend power left => exact layer (List.forall_mem_nil _)
  | selectors => exact layer (List.forall_mem_nil _)
  | assignment => exact .refl _ cursor
  | declaration => exact .refl _ cursor
  | rule => exact .refl _ cursor
  | bodyItem => exact .refl _ cursor
  | sheetItem => exact .refl _ cursor
  | body => exact layer (List.forall_mem_singleton.mpr (same_within_bodyItem ready (Nat.le_refl _)))
  | sheet => exact layer (List.forall_mem_singleton.mpr (.refl _ cursor))

/-- Every layer passes a token or leads to a call of a lower rank. -/
theorem endsWithin_of_lt {depth : Nat} {call : Call} (ready : cursor.Ready)
    (fits : call.Fits cursor) (enough : 4 * cursor.left.length + call.rank < depth) :
    call.EndsWithin depth cursor := by
  induction depth generalizing call cursor with
  | zero => exact absurd enough (Nat.not_lt_zero _)
  | succ depth ih =>
      intro calls
      have agree : Calls.Agree (step^[depth] calls) call cursor := by
        constructor
        · intro other opened
          obtain ⟨lower, fits⟩ := of_opens opened
          exact ih ready (fits cursor) (by omega) calls
        · intro other start readyStart fits fewer
          have low := other.rank_lt
          exact ih readyStart fits (by omega) calls
      rw [Function.iterate_succ_apply']
      exact (agree.same_step ready fits).trans (same_read ready fits).symm

theorem endsWithin {call : Call} (ready : cursor.Ready) (fits : call.Fits cursor) :
    call.EndsWithin (4 * (cursor.left.length + 1)) cursor := by
  have low := call.rank_lt
  exact endsWithin_of_lt ready fits (by omega)

end Call

end Read

end TypedStyle
