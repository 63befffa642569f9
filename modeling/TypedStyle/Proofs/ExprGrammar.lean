import TypedStyle.Proofs.Operand

/-!
The grammar of expressions in layers, against which reading by binding power is proved exact:

    expression := term (('+' | '-') term)*
    term       := factor ('*' factor)*
    factor     := operand | '(' expression ')'

A chain of operators groups to the left. Reading is sound by induction on the bound of its steps,
with the layer of what has been read so far as the invariant, and complete by induction on the
derivation.
-/

namespace TypedStyle

inductive Layer where
  | factor
  | term
  | expression
  deriving DecidableEq

inductive JoinsTerms : Token → Operator → Prop where
  | plus {sign : Token} (kind : sign.kind = .plus) : JoinsTerms sign .add
  | dash {sign : Token} (kind : sign.kind = .dash) : JoinsTerms sign .subtract

inductive Derives : Layer → List Token → Expr → Prop where
  | operand {token : Token} {tree : Expr} (written : Operand token tree) :
      Derives .factor [token] tree
  | group {opening closing : Token} {inner : List Token} {tree : Expr}
      (opens : opening.kind = .openParen) (inside : Derives .expression inner tree)
      (closes : closing.kind = .closeParen) :
      Derives .factor (opening :: (inner ++ [closing])) tree
  | factor {tokens : List Token} {tree : Expr} (only : Derives .factor tokens tree) :
      Derives .term tokens tree
  | product {left right : List Token} {sign : Token} {lhs rhs : Expr}
      (first : Derives .term left lhs) (star : sign.kind = .star)
      (second : Derives .factor right rhs) :
      Derives .term (left ++ sign :: right) (.operation .multiply lhs rhs .null none)
  | term {tokens : List Token} {tree : Expr} (only : Derives .term tokens tree) :
      Derives .expression tokens tree
  | sum {left right : List Token} {sign : Token} {operator : Operator} {lhs rhs : Expr}
      (first : Derives .expression left lhs) (joins : JoinsTerms sign operator)
      (second : Derives .term right rhs) :
      Derives .expression (left ++ sign :: right) (.operation operator lhs rhs .null none)

theorem Derives.unmarked {layer : Layer} {tokens : List Token} {tree : Expr}
    (derives : Derives layer tokens tree) : tree.diagnostics = [] := by
  induction derives with
  | operand written => cases written <;> rfl
  | group _ _ _ ih => exact ih
  | factor _ ih => exact ih
  | term _ ih => exact ih
  | product _ _ _ ihl ihr => simp [Expr.diagnostics, ihl, ihr]
  | sum _ _ _ ihl ihr => simp [Expr.diagnostics, ihl, ihr]

/-- The tokens write the expression, and it has its spans from them: an operand that of its token,
and an operation from its left operand to its right one. Parentheses are in the span of what stands
around them, and in no other. -/
inductive Expr.SpannedBy : Expr → List Token → Prop where
  | literal {token : Token} {value : Literal} (written : Operand token (.literal value .null)) :
      SpannedBy (.literal value token.span) [token]
  | reference {token : Token} (named : token.kind = .variableName) :
      SpannedBy (.reference token.text token.span none) [token]
  | group {opening closing : Token} {inner : List Token} {tree : Expr}
      (opens : opening.kind = .openParen) (inside : tree.SpannedBy inner)
      (closes : closing.kind = .closeParen) : SpannedBy tree (opening :: (inner ++ [closing]))
  | operation {left right : List Token} {sign : Token} {operator : Operator} {lhs rhs : Expr}
      (first : lhs.SpannedBy left) (joins : sign.kind.operator? = some operator)
      (second : rhs.SpannedBy right) :
      SpannedBy (.operation operator lhs rhs ⟨lhs.span.start, rhs.span.stop⟩ none)
        (left ++ sign :: right)

theorem Expr.SpannedBy.of_operand {token : Token} {tree : Expr} (read : token.operand = .ok tree) :
    tree.SpannedBy [token] := by
  have span := Token.span_of_operand read
  have written := Operand.of_operand read
  cases tree with
  | literal value place =>
      cases span
      exact .literal written
  | reference name place diagnostic =>
      cases span
      cases written with
      | variableName kind => exact .reference kind
  | operation operator lhs rhs place diagnostic => cases written

structure Expr.ReadFrom (layer : Layer) (tokens : List Token) (expr : Expr) : Prop where
  derives : Derives layer tokens expr.bare
  spanned : expr.SpannedBy tokens

namespace Grammar

def rank (kind : TokenKind) : Nat := (language.power kind).rank

theorem joins_cases {kind : TokenKind} (joins : language.joins kind = true) :
    (kind = .plus ∨ kind = .dash) ∧ language.power kind = .additive ∨
      kind = .star ∧ language.power kind = .multiplicative := by
  cases kind <;> first | exact absurd joins (by decide) | decide

end Grammar

namespace JoinsTerms

variable {sign : Token} {operator : Operator}

theorem power_eq (joins : JoinsTerms sign operator) :
    Grammar.language.power sign.kind = .additive := by
  cases joins with
  | plus kind | dash kind =>
      rw [kind]
      rfl

theorem joins_eq (joins : JoinsTerms sign operator) : Grammar.language.joins sign.kind = true := by
  cases joins with
  | plus kind | dash kind =>
      rw [kind]
      rfl

theorem operator?_eq (joins : JoinsTerms sign operator) : sign.kind.operator? = some operator := by
  cases joins with
  | plus kind | dash kind =>
      rw [kind]
      rfl

end JoinsTerms

namespace Grammar

theorem joins_ne_eof {kind : TokenKind} (joins : language.joins kind = true) : kind ≠ .eof := by
  rintro rfl
  exact absurd joins (by decide)

theorem operand?_primary {kind : TokenKind} (starts : language.operand? kind = some .primary) :
    kind ≠ .eof := by
  rintro rfl
  exact absurd starts (by decide)

theorem operand?_grouping {kind : TokenKind} (starts : language.operand? kind = some .grouping) :
    kind = .openParen := by
  cases kind <;> first | rfl | exact absurd starts (by decide)

theorem operand?_of_operand {token : Token} {tree : Expr} (written : Operand token tree) :
    language.operand? token.kind = some .primary := by
  cases written with
  | pixel kind _ | percentage kind _ | scalar kind _ | hash kind _ | identifier kind _
  | variableName kind =>
      rw [kind]
      rfl

end Grammar

open Grammar (language rank)

def Power.layer : Power → Layer
  | .lowest => .expression
  | .additive => .term
  | .multiplicative | .primary => .factor

/-- What has been read belongs to the layer, and joined to what follows it still will. -/
def Extendable (power : Power) (tokens : List Token) (tree : Expr) (next : TokenKind) : Prop :=
  match power with
  | .lowest => Derives .term tokens tree ∨ Derives .expression tokens tree ∧ rank next ≤ 1
  | .additive => Derives .term tokens tree
  | .multiplicative | .primary => Derives .factor tokens tree

namespace Extendable

variable {power : Power} {tokens : List Token} {tree : Expr} {next : TokenKind}

theorem of_factor (factor : Derives .factor tokens tree) : Extendable power tokens tree next := by
  cases power with
  | lowest => exact Or.inl (.factor factor)
  | additive => exact .factor factor
  | multiplicative => exact factor
  | primary => exact factor

theorem derives (extendable : Extendable power tokens tree next) :
    Derives power.layer tokens tree := by
  cases power with
  | lowest =>
      rcases extendable with term | ⟨expression, _⟩
      · exact .term term
      · exact expression
  | additive => exact extendable
  | multiplicative => exact extendable
  | primary => exact extendable

-- A product never extends a sum: after a sum the next token binds no more tightly than its sign.
theorem product {sign : Token} {right : List Token} {rhs : Expr} {after : TokenKind}
    (extendable : Extendable power tokens tree sign.kind) (star : sign.kind = .star)
    (binds : power.rank < rank sign.kind) (second : Derives .factor right rhs) :
    Extendable power (tokens ++ sign :: right) (.operation .multiply tree rhs .null none) after := by
  rw [star] at extendable binds
  cases power with
  | lowest =>
      rcases extendable with term | ⟨_, loose⟩
      · exact Or.inl (.product term star second)
      · exact absurd loose (by decide)
  | additive => exact .product extendable star second
  | multiplicative => exact absurd binds (by decide)
  | primary => exact absurd binds (by decide)

theorem sum {sign : Token} {operator : Operator} {right : List Token} {rhs : Expr}
    {after : TokenKind} (extendable : Extendable power tokens tree sign.kind)
    (joins : JoinsTerms sign operator) (binds : power.rank < rank sign.kind)
    (second : Derives .term right rhs) (loose : rank after ≤ 1) :
    Extendable power (tokens ++ sign :: right) (.operation operator tree rhs .null none) after := by
  rw [rank, joins.power_eq] at binds
  cases power with
  | lowest => exact Or.inr ⟨.sum extendable.derives joins second, loose⟩
  | additive => exact absurd binds (by decide)
  | multiplicative => exact absurd binds (by decide)
  | primary => exact absurd binds (by decide)

end Extendable

/-! ### What is read derives from the grammar -/

namespace Read

theorem reaches_primary {cursor : Cursor} (ready : cursor.Ready)
    (inside : cursor.current.kind ≠ .eof) :
    Reaches primary cursor fun tokens expr _ => expr.ReadFrom .factor tokens := by
  apply reaches_current_bind
  split
  · rename_i expr read
    apply (reaches_advance ready inside).bind ready
    rintro _ _ after _ _ rfl
    exact reaches_pure ⟨.operand (.of_operand read), .of_operand read⟩
  · rename_i fault failed
    exact reaches_reject (Token.refuses_of_operand failed).stage

theorem reaches_groupingOf {inner : Read Expr} {cursor : Cursor} (ready : cursor.Ready)
    (opens : cursor.current.kind = .openParen)
    (inside : ∀ cursor : Cursor, cursor.Ready →
      Reaches inner cursor fun tokens expr _ => expr.ReadFrom .expression tokens) :
    Reaches (groupingOf inner) cursor fun tokens expr _ => expr.ReadFrom .factor tokens := by
  apply (reaches_advance ready (by simp [opens])).bind ready
  rintro _ _ afterOpen readyInner _ rfl
  apply (inside afterOpen readyInner).bind readyInner
  rintro tokens expr afterInner readyClose _ ⟨derives, spanned⟩
  apply (reaches_expect readyClose (by decide)).bind readyClose
  rintro _ closing _ _ _ ⟨rfl, closes⟩
  apply reaches_pure
  have group : expr.ReadFrom .factor (cursor.current :: (tokens ++ [closing])) :=
    ⟨.group opens derives closes, .group opens spanned closes⟩
  simpa using group

theorem reaches_operandOf {inner : Read Expr} {cursor : Cursor} (ready : cursor.Ready)
    (inside : ∀ cursor : Cursor, cursor.Ready →
      Reaches inner cursor fun tokens expr _ => expr.ReadFrom .expression tokens) :
    Reaches (operandOf language inner) cursor fun tokens expr _ =>
      expr.ReadFrom .factor tokens := by
  apply reaches_current_bind
  split
  · rename_i starts
    exact reaches_primary ready (Grammar.operand?_primary starts)
  · rename_i starts
    exact reaches_groupingOf ready (Grammar.operand?_grouping starts) inside
  · exact reaches_unexpected

theorem reaches_operationOf {right : Read Expr} {cursor : Cursor} (ready : cursor.Ready)
    {operator : Operator} (joins : cursor.current.kind.operator? = some operator)
    (inside : cursor.current.kind ≠ .eof) (lhs : Expr)
    {good : List Token → Expr → Cursor → Prop}
    (second : ∀ cursor : Cursor, cursor.Ready → Reaches right cursor good) :
    Reaches (operationOf right lhs) cursor fun tokens expr after =>
      ∃ more rhs, tokens = cursor.current :: more ∧ good more rhs after ∧
        expr = .operation operator lhs rhs ⟨lhs.span.start, rhs.span.stop⟩ none := by
  apply reaches_current_bind
  rw [joins]
  apply (reaches_advance ready inside).bind ready
  rintro _ _ afterSign readyRight _ rfl
  apply (second afterSign readyRight).bind readyRight
  rintro more rhs afterRight _ _ holds
  apply reaches_pure
  exact ⟨more, rhs, by simp, holds, rfl⟩

-- One turn of the extension, provided that the right operand is read properly.
theorem reaches_extension {right : Read Expr} {cursor : Cursor} (ready : cursor.Ready)
    {power : Power} {before : List Token} {left : Expr}
    (extendable : Extendable power before left.bare cursor.current.kind)
    (joins : language.joins cursor.current.kind = true)
    (binds : power.rank < rank cursor.current.kind)
    (second : ∀ start : Cursor, start.Ready →
      Reaches right start fun tokens expr after =>
        expr.ReadFrom (language.power cursor.current.kind).layer tokens ∧
          rank after.current.kind ≤ (language.power cursor.current.kind).rank) :
    Reaches (operationOf right left) cursor fun tokens whole after =>
      Extendable power (before ++ tokens) whole.bare after.current.kind ∧
        (left.SpannedBy before → whole.SpannedBy (before ++ tokens)) := by
  have inside := Grammar.joins_ne_eof joins
  rcases Grammar.joins_cases joins with ⟨sign, additive⟩ | ⟨star, multiplicative⟩
  · rw [additive] at second
    obtain ⟨operator, joinsTerms⟩ : ∃ operator, JoinsTerms cursor.current operator := by
      rcases sign with plus | dash
      · exact ⟨.add, .plus plus⟩
      · exact ⟨.subtract, .dash dash⟩
    apply (reaches_operationOf ready joinsTerms.operator?_eq inside left second).mono
    rintro _ whole after ⟨more, rhs, rfl, ⟨⟨term, spanned⟩, loose⟩, rfl⟩
    exact ⟨extendable.sum joinsTerms binds term loose,
      fun first => .operation first joinsTerms.operator?_eq spanned⟩
  · rw [multiplicative] at second
    have found : cursor.current.kind.operator? = some .multiply := by
      rw [star]
      rfl
    apply (reaches_operationOf ready found inside left second).mono
    rintro _ whole after ⟨more, rhs, rfl, ⟨⟨factor, spanned⟩, _⟩, rfl⟩
    exact ⟨extendable.product star binds factor, fun first => .operation first found spanned⟩

theorem reaches_within (bound : List Token) :
    (∀ power cursor, Cursor.Ready cursor →
      Reaches (exprWithin language bound power) cursor fun tokens expr after =>
        expr.ReadFrom power.layer tokens ∧ rank after.current.kind ≤ power.rank) ∧
    (∀ power cursor before left, Cursor.Ready cursor →
      Extendable power before (Expr.bare left) cursor.current.kind →
      Reaches (extendWithin language bound power left) cursor fun tokens expr after =>
        Derives power.layer (before ++ tokens) expr.bare ∧
          (left.SpannedBy before → expr.SpannedBy (before ++ tokens)) ∧
          rank after.current.kind ≤ power.rank) := by
  induction bound with
  | nil =>
      constructor
      · intro power cursor _
        exact reaches_unexpected
      · intro power cursor before left _ _
        exact reaches_unexpected
  | cons _ bound ih =>
      obtain ⟨ihExpr, ihExtend⟩ := ih
      constructor
      · intro power cursor ready
        have operand := reaches_operandOf ready fun cursor ready =>
          (ihExpr .lowest cursor ready).mono fun _ _ _ holds => holds.1
        apply operand.bind ready
        intro tokens left after readyRest _ factor
        apply (ihExtend power after tokens left readyRest (.of_factor factor.derives)).mono
        rintro more expr final ⟨derives, spanned, loose⟩
        exact ⟨⟨derives, spanned factor.spanned⟩, loose⟩
      · intro power cursor before left ready extendable
        apply reaches_current_bind
        dsimp only
        split
        · rename_i loose
          apply reaches_pure
          rw [List.append_nil]
          exact ⟨extendable.derives, id, loose⟩
        rename_i tight
        have binds : power.rank < rank cursor.current.kind := Nat.lt_of_not_le tight
        split
        · rename_i joins
          apply (reaches_extension ready extendable joins binds (ihExpr _)).bind ready
          rintro tokens whole after readyRest _ ⟨extended, spans⟩
          apply (ihExtend power after (before ++ tokens) whole readyRest extended).mono
          rintro more expr final ⟨derives, spanned, loose⟩
          rw [List.append_assoc] at derives spanned
          exact ⟨derives, fun first => spanned (spans first), loose⟩
        · exact reaches_unexpected

theorem reaches_expr {cursor : Cursor} (ready : cursor.Ready) :
    Reaches (expr language .lowest) cursor fun tokens expr _ =>
      expr.ReadFrom .expression tokens :=
  ((reaches_within cursor.left).1 .lowest cursor ready).mono fun _ _ _ holds => holds.1

end Read

/-! ### What derives from the grammar is read -/

def Layer.limit : Layer → Nat
  | .factor => 3
  | .term => 1
  | .expression => 0

def Layer.follow : Layer → Nat
  | .factor => 3
  | .term => 2
  | .expression => 1

namespace Read

/-- Reading at `power` passes `tokens`, and what is left to do is to extend their tree. -/
def Continues (bound : List Token) (power : Power) (cursor : Cursor) (tokens : List Token)
    (tree : Expr) (spare : Nat) : Prop :=
  ∃ expr after left, cursor.Passes tokens after ∧ Expr.bare expr = tree ∧
    spare ≤ List.length left ∧
    exprWithin language bound power cursor = extendWithin language left power expr after

theorem extendWithin_stop {bound : List Token} {power : Power} {left : Expr} {cursor : Cursor}
    (positive : 0 < bound.length) (loose : rank cursor.current.kind ≤ power.rank) :
    extendWithin language bound power left cursor = .ok left cursor := by
  cases bound with
  | nil => cases positive
  | cons first bound =>
      unfold rank at loose
      rw [extendWithin, bind_eq, current_eq]
      dsimp only
      rw [if_pos loose]
      rfl

theorem extendWithin_step {first : Token} {bound : List Token} {power : Power} {left : Expr}
    {cursor : Cursor} (tight : power.rank < rank cursor.current.kind)
    (joins : language.joins cursor.current.kind = true) :
    extendWithin language (first :: bound) power left cursor =
      (operationOf (exprWithin language bound (language.power cursor.current.kind)) left >>=
        extendWithin language bound power) cursor := by
  unfold rank at tight
  rw [extendWithin, bind_eq, current_eq]
  dsimp only
  rw [if_neg (Nat.not_le_of_lt tight), if_pos joins]

theorem Continues.of_operand {first : Token} {bound : List Token} {cursor : Cursor}
    {tokens : List Token} {tree : Expr} {spare : Nat} (power : Power)
    (operand : Yields (operandOf language (exprWithin language bound .lowest)) cursor tokens
      (Expr.bare · = tree)) (enough : spare ≤ bound.length) :
    Continues (first :: bound) power cursor tokens tree spare := by
  obtain ⟨expr, after, read, passes, same⟩ := operand
  refine ⟨expr, after, bound, passes, same, enough, ?_⟩
  rw [exprWithin, bind_eq, read]

theorem Continues.yields {bound : List Token} {power : Power} {cursor : Cursor}
    {tokens rest : List Token} {tree : Expr} {spare : Nat} {next : Token}
    (continues : Continues bound power cursor tokens tree spare) (positive : 0 < spare)
    (left : cursor.left = tokens ++ next :: rest) (loose : rank next.kind ≤ power.rank) :
    Yields (exprWithin language bound power) cursor tokens (Expr.bare · = tree) := by
  obtain ⟨expr, after, bound, passes, same, enough, read⟩ := continues
  refine ⟨expr, after, ?_, passes, same⟩
  have current : after.current = next := Cursor.current_eq_of_left (passes.left_eq left)
  rw [read, extendWithin_stop (Nat.lt_of_lt_of_le positive enough) (by rw [current]; exact loose)]

theorem Continues.join {bound : List Token} {power : Power} {cursor : Cursor}
    {left right rest : List Token} {lhs rhs : Expr} {sign : Token} {operator : Operator}
    {spare : Nat} (continues : Continues bound power cursor left lhs (right.length + spare + 1))
    (closed : cursor.Closed) (split : cursor.left = left ++ sign :: (right ++ rest))
    (found : sign.kind.operator? = some operator) (joins : language.joins sign.kind = true)
    (tight : power.rank < rank sign.kind)
    (second : ∀ bound start, Cursor.Closed start → start.left = right ++ rest →
      right.length + spare ≤ List.length bound →
      Yields (exprWithin language bound (language.power sign.kind)) start right
        (Expr.bare · = rhs)) :
    Continues bound power cursor (left ++ sign :: right)
      (.operation operator lhs rhs .null none) spare := by
  obtain ⟨expr, atSign, bound, passes, rfl, enough, read⟩ := continues
  cases bound with
  | nil => exact absurd enough (by simp)
  | cons first bound =>
      have closedSign := closed.of_passes passes
      have leftSign := passes.left_eq split
      cases Cursor.current_eq_of_left leftSign
      have onward := closedSign.passes_advance (Grammar.joins_ne_eof joins)
      have enough : right.length + spare ≤ bound.length := Nat.le_of_succ_le_succ enough
      obtain ⟨operand, after, readRight, further, rfl⟩ :=
        second bound atSign.advance (closedSign.of_passes onward) (onward.left_eq leftSign) enough
      refine ⟨.operation operator expr operand ⟨expr.span.start, operand.span.stop⟩ none, after,
        bound, ?_, rfl, Nat.le_trans (Nat.le_add_left _ _) enough, ?_⟩
      · exact passes.trans (onward.trans further)
      · rw [read, extendWithin_step tight joins, bind_eq, operationOf, bind_eq, current_eq]
        dsimp only
        rw [found]
        dsimp only
        rw [bind_eq, advance_eq]
        dsimp only
        rw [bind_eq, readRight]
        rfl

theorem yields_operandOf {token : Token} {tree : Expr} (written : Operand token tree)
    (inner : Read Expr) {cursor : Cursor} (closed : cursor.Closed) {rest : List Token}
    (left : cursor.left = token :: rest) :
    Yields (operandOf language inner) cursor [token] (Expr.bare · = tree) := by
  cases Cursor.current_eq_of_left left
  have starts := Grammar.operand?_of_operand written
  have onward := closed.passes_advance (Grammar.operand?_primary starts)
  obtain ⟨expr, read, same⟩ := written.operand_eq
  refine ⟨expr, cursor.advance, ?_, onward, same⟩
  rw [operandOf, bind_eq, current_eq]
  dsimp only
  rw [starts]
  dsimp only
  rw [primary, bind_eq, current_eq]
  dsimp only
  rw [read]
  rfl

theorem yields_grouping {opening closing : Token} {inner rest : List Token} {tree : Expr}
    (opens : opening.kind = .openParen) (closes : closing.kind = .closeParen) {read : Read Expr}
    {cursor : Cursor} (closed : cursor.Closed)
    (left : cursor.left = opening :: (inner ++ closing :: rest))
    (inside : ∀ start : Cursor, start.Closed → start.left = inner ++ closing :: rest →
      Yields read start inner (Expr.bare · = tree)) :
    Yields (operandOf language read) cursor (opening :: (inner ++ [closing]))
      (Expr.bare · = tree) := by
  have grouping : Yields (groupingOf read) cursor ([opening] ++ (inner ++ ([closing] ++ [])))
      (Expr.bare · = tree) := by
    apply (yields_advance closed left (by simp [opens])).bind
    rintro _ afterOpen onward rfl
    have closedInner := closed.of_passes onward
    have leftInner := onward.left_eq left
    apply (inside afterOpen closedInner leftInner).bind
    rintro expr afterInner further same
    have leftClose := further.left_eq leftInner
    have closedClose := closedInner.of_passes further
    rw [← closes]
    apply (yields_expect closedClose leftClose (by simp [closes])).bind
    rintro _ _ _ rfl
    exact yields_pure same
  cases Cursor.current_eq_of_left left
  have starts : language.operand? cursor.current.kind = some .grouping := by
    rw [opens]
    rfl
  obtain ⟨expr, after, step, passes, same⟩ := grouping
  refine ⟨expr, after, ?_, by simpa using passes, same⟩
  rw [operandOf, bind_eq, current_eq]
  dsimp only
  rw [starts]
  exact step

end Read

open Read in
theorem Derives.continues {layer : Layer} {tokens : List Token} {tree : Expr}
    (derives : Derives layer tokens tree) {power : Power} {cursor : Cursor} {next : Token}
    {rest bound : List Token} {spare : Nat} (within : power.rank ≤ layer.limit)
    (closed : cursor.Closed) (left : cursor.left = tokens ++ next :: rest)
    (loose : rank next.kind ≤ layer.follow) (positive : 0 < spare)
    (enough : tokens.length + spare ≤ bound.length) :
    Continues bound power cursor tokens tree spare := by
  induction derives generalizing power cursor next rest bound spare with
  | operand written =>
      cases bound with
      | nil => exact absurd enough (by simp)
      | cons first bound =>
          have enough : spare ≤ bound.length := by simp at enough; omega
          exact .of_operand power (yields_operandOf written _ closed left) enough
  | @group opening closing inner tree opens inside closes ih =>
      cases bound with
      | nil => exact absurd enough (by simp)
      | cons first bound =>
          have enough : inner.length + 1 + spare ≤ bound.length := by simp at enough; omega
          refine .of_operand power (yields_grouping opens closes closed (by simpa using left) ?_)
            (by omega)
          intro start closedInner leftInner
          have loose : rank closing.kind ≤ Power.lowest.rank := by rw [closes]; decide
          have continues : Continues bound .lowest start inner tree 1 :=
            ih (Nat.le_refl _) closedInner leftInner (Nat.le_trans loose (by decide)) Nat.one_pos
              (by omega)
          exact continues.yields Nat.one_pos leftInner loose
  | factor only ih =>
      exact ih (Nat.le_trans within (by decide)) closed left (Nat.le_trans loose (by decide))
        positive enough
  | term only ih =>
      exact ih (Nat.le_trans within (by decide)) closed left (Nat.le_trans loose (by decide))
        positive enough
  | @product front back sign lhs rhs first star second ihFirst ihSecond =>
      have split : cursor.left = front ++ sign :: (back ++ next :: rest) := by simpa using left
      have enough : front.length + (back.length + spare + 1) ≤ bound.length := by
        simp at enough; omega
      have here := ihFirst within closed split (by rw [star]; decide) (by omega) enough
      refine here.join closed split (by rw [star]; rfl) (by rw [star]; decide)
        (Nat.lt_of_le_of_lt within (by rw [star]; decide)) ?_
      intro bound start closedRight leftRight enough
      have power : language.power sign.kind = .multiplicative := by rw [star]; rfl
      rw [power]
      have continues : Continues bound .multiplicative start back rhs spare :=
        ihSecond (by decide) closedRight leftRight (Nat.le_trans loose (by decide)) positive enough
      exact continues.yields positive leftRight loose
  | @sum front back sign operator lhs rhs first joins second ihFirst ihSecond =>
      have split : cursor.left = front ++ sign :: (back ++ next :: rest) := by simpa using left
      have enough : front.length + (back.length + spare + 1) ≤ bound.length := by
        simp at enough; omega
      have power := joins.power_eq
      have here := ihFirst within closed split (by rw [rank, power]; decide) (by omega) enough
      refine here.join closed split joins.operator?_eq joins.joins_eq
        (Nat.lt_of_le_of_lt within (by rw [rank, power]; decide)) ?_
      intro bound start closedRight leftRight enough
      rw [power]
      have continues : Continues bound .additive start back rhs spare :=
        ihSecond (by decide) closedRight leftRight (Nat.le_trans loose (by decide)) positive enough
      exact continues.yields positive leftRight loose

/-- An expression before a token that binds nothing is read as its tree. -/
theorem Derives.yields_expr {tokens rest : List Token} {tree : Expr} {next : Token}
    (derives : Derives .expression tokens tree) {cursor : Cursor} (closed : cursor.Closed)
    (left : cursor.left = tokens ++ next :: rest) (loose : rank next.kind ≤ 0) :
    Read.Yields (Read.expr language .lowest) cursor tokens (Expr.bare · = tree) := by
  have enough : tokens.length + 1 ≤ cursor.left.length := by simp [left]
  have continues := derives.continues (Nat.le_refl Power.lowest.rank) closed left
    (Nat.le_trans loose (by decide)) Nat.one_pos enough
  exact continues.yields Nat.one_pos left loose

end TypedStyle
