import TypedStyle.Proofs.SheetGrammar

/-!
Reading looks no further than it gets. Whatever a read does, it does the same at a cursor with
other tokens ahead, as long as the tokens it passes and the one it stops at are the same. The one
look at the token after the current one is no exception: it is taken only before the current token
is passed.

A read that is bounded by the tokens left is compared with the same read under another bound; both
bounds have to allow for the tokens that are left.
-/

namespace TypedStyle

open Grammar (language)

namespace Cursor

def refill (cursor : Cursor) (ahead : List Token) : Cursor := { cursor with ahead }

namespace Passes

variable {before after : Cursor} {tokens : List Token}

theorem unique {others : List Token} (passes : before.Passes tokens after)
    (likewise : before.Passes others after) : tokens = others :=
  List.append_cancel_right (passes.left.symm.trans likewise.left)

theorem eq_nil {cursor : Cursor} (passes : cursor.Passes tokens cursor) : tokens = [] :=
  passes.unique (.refl cursor)

theorem length_left (passes : before.Passes tokens after) :
    before.left.length = tokens.length + after.left.length := by
  rw [passes.left, List.length_append]

theorem length_lt {token : Token} (passes : before.Passes [token] after) :
    after.left.length < before.left.length := by
  rw [passes.length_left]
  exact Nat.lt_add_of_pos_left Nat.one_pos

/-- Whatever stands after the last token of a stretch, the stretch ends where its second part
does. -/
theorem refill_split {middle : Cursor} {more : List Token} (onward : middle.Passes more after)
    {current : Token} {ahead rest : List Token}
    (left : current :: ahead = tokens ++ more ++ after.current :: rest) :
    ∃ between, current :: ahead = tokens ++ middle.current :: between ∧
      middle.current :: between = more ++ after.current :: rest := by
  cases more with
  | nil =>
      obtain ⟨same, _⟩ := List.cons.inj onward.left
      exact ⟨rest, by rw [same]; simpa using left, by rw [same]; rfl⟩
  | cons next more =>
      obtain ⟨same, _⟩ := List.cons.inj onward.left
      exact ⟨more ++ after.current :: rest, by rw [same]; simpa using left, by rw [same]; rfl⟩

end Passes

end Cursor

theorem Derives.length_pos {layer : Layer} {tokens : List Token} {tree : Expr}
    (derives : Derives layer tokens tree) : 0 < tokens.length := by
  induction derives with
  | operand written => exact Nat.one_pos
  | group opens inside closes ih => exact Nat.succ_pos _
  | factor only ih => exact ih
  | term only ih => exact ih
  | product first star second ihFirst ihSecond | sum first joins second ihFirst ihSecond =>
      rw [List.length_append]
      exact Nat.add_pos_left ihFirst _

theorem DerivesAssignment.length_pos {tokens : List Token} {tree : Assignment}
    (derives : DerivesAssignment tokens tree) : 0 < tokens.length := by
  cases derives with
  | intro named divides expression ends => exact Nat.succ_pos _

theorem DerivesDeclaration.length_pos {tokens : List Token} {tree : Declaration}
    (derives : DerivesDeclaration tokens tree) : 0 < tokens.length := by
  cases derives with
  | intro named known divides expression ends => exact Nat.succ_pos _

theorem DerivesBody.length_pos {level : Level} {tokens : List Token} {tree : Body}
    (derives : DerivesBody level tokens tree) (filled : tree ≠ .empty) : 0 < tokens.length := by
  cases derives with
  | empty => exact absurd rfl filled
  | declaration first rest | assignment first rest =>
      rw [List.length_append]
      exact Nat.add_pos_left first.length_pos _
  | rule first opens body closes rest =>
      rw [List.length_append]
      exact Nat.add_pos_right _ (Nat.succ_pos _)

theorem Expr.ReadFrom.length_pos {layer : Layer} {tokens : List Token} {expr : Expr}
    (read : expr.ReadFrom layer tokens) : 0 < tokens.length :=
  read.derives.length_pos

theorem Item.ReadFrom.length_pos {level : Level} {tokens : List Token} {item : Item}
    (read : item.ReadFrom level tokens) : 0 < tokens.length := by
  have derives := read.heads [] .empty .empty
  rw [List.append_nil] at derives
  exact derives.length_pos (by cases item <;> nofun)

theorem Grammar.operator?_of_joins {kind : TokenKind} (joins : language.joins kind = true) :
    ∃ operator, kind.operator? = some operator := by
  rcases joins_cases joins with ⟨rfl | rfl, _⟩ | ⟨rfl, _⟩
  · exact ⟨.add, rfl⟩
  · exact ⟨.subtract, rfl⟩
  · exact ⟨.multiply, rfl⟩

namespace Read

variable {Result Next : Type}

abbrev Outcome (Result : Type) := EStateM.Result (Stop Diagnostic) Cursor Result

def final (read : Read Result) (cursor : Cursor) : Cursor :=
  match read cursor with
  | .ok _ after | .error _ after => after

def refilled (ahead : List Token) : Outcome Result → Outcome Result
  | .ok result after => .ok result (after.refill ahead)
  | .error stop after => .error stop (after.refill ahead)

/-- From the cursor, `read` passes `front` and perhaps more, and `other` does the same with any
tokens after the one where `read` stops, provided that fewer than `limit` are ahead. -/
structure Local (read other : Read Result) (limit : Nat) (cursor : Cursor) (front : List Token) :
    Prop where
  moves : ∃ tokens, cursor.Passes (front ++ tokens) (final read cursor)
  agrees : ∀ tokens ahead rest, cursor.Passes tokens (final read cursor) →
    cursor.current :: ahead = tokens ++ (final read cursor).current :: rest →
    ahead.length < limit → other (cursor.refill ahead) = refilled rest (read cursor)

variable {read other : Read Result} {limit : Nat} {cursor : Cursor} {front : List Token}

theorem Reaches.and {good likewise : List Token → Result → Cursor → Prop}
    (reaches : Reaches read cursor good) (also : Reaches read cursor likewise) :
    Reaches read cursor fun tokens result after =>
      good tokens result after ∧ likewise tokens result after := by
  unfold Reaches at *
  cases step : read cursor with
  | error stop after =>
      rw [step] at reaches
      exact reaches
  | ok result after =>
      rw [step] at reaches also
      obtain ⟨tokens, passes, holds⟩ := reaches
      obtain ⟨_, again, holdsToo⟩ := also
      cases again.unique passes
      exact ⟨tokens, passes, holds, holdsToo⟩

namespace Local

theorem mono {less : Nat} (here : Local read other limit cursor front) (smaller : less ≤ limit) :
    Local read other less cursor front where
  moves := here.moves
  agrees tokens ahead rest passes left short :=
    here.agrees tokens ahead rest passes left (Nat.lt_of_lt_of_le short smaller)

theorem forget (here : Local read other limit cursor front) :
    Local read other limit cursor [] where
  moves := by
    obtain ⟨tokens, passes⟩ := here.moves
    exact ⟨front ++ tokens, passes⟩
  agrees := here.agrees

theorem congr {same otherSame : Read Result} (here : Local same otherSame limit cursor front)
    (equal : read cursor = same cursor)
    (otherEqual : ∀ ahead, other (cursor.refill ahead) = otherSame (cursor.refill ahead)) :
    Local read other limit cursor front := by
  obtain ⟨moves, agrees⟩ := here
  rw [final, ← equal] at moves agrees
  constructor
  · exact moves
  · intro tokens ahead rest passes left short
    rw [otherEqual]
    exact agrees tokens ahead rest passes left short

theorem limit_zero {another : Read Result} (here : Local read other limit cursor front) :
    Local read another 0 cursor front where
  moves := here.moves
  agrees _ _ _ _ _ short := absurd short (Nat.not_lt_zero _)

theorem of_stays (stays : final read cursor = cursor)
    (same : ∀ ahead, other (cursor.refill ahead) = refilled ahead (read cursor)) :
    Local read other limit cursor [] where
  moves := ⟨[], by rw [stays]; exact .refl cursor⟩
  agrees tokens ahead rest passes left _ := by
    rw [stays] at passes left
    cases passes.eq_nil
    cases left
    exact same ahead

theorem of_reaches {good : List Token → Result → Cursor → Prop}
    (reaches : Reaches read cursor good) : Local read other 0 cursor [] where
  moves := by
    unfold Reaches at reaches
    unfold final
    cases step : read cursor with
    | ok result after =>
        rw [step] at reaches
        obtain ⟨tokens, passes, _⟩ := reaches
        exact ⟨tokens, passes⟩
    | error stop after =>
        rw [step] at reaches
        obtain ⟨tokens, passes, _⟩ := reaches
        exact ⟨tokens, passes⟩
  agrees _ _ _ _ _ short := absurd short (Nat.not_lt_zero _)

-- A read bounded by the tokens left never meets its bound.
theorem of_left (reads : List Token → Read Result)
    (bounded : ∀ more, Local (reads cursor.left) (reads more) more.length cursor front) :
    Local (fun cursor => reads cursor.left cursor) (fun cursor => reads cursor.left cursor) limit
      cursor front where
  moves := (bounded []).moves
  agrees tokens ahead rest passes left _ :=
    (bounded (cursor.current :: ahead)).agrees tokens ahead rest passes left (Nat.lt_succ_self _)

theorem bind {next otherNext : Result → Read Next} {middle : List Token → Result → Cursor → Prop}
    (ready : cursor.Ready) (here : Local read other limit cursor front)
    (reaches : Reaches read cursor middle)
    (there : ∀ tokens result after, after.Ready → cursor.Passes tokens after →
      middle tokens result after →
      Local (next result) (otherNext result) (limit - tokens.length) after []) :
    Local (read >>= next) (other >>= otherNext) limit cursor front := by
  obtain ⟨moves, agrees⟩ := here
  unfold Reaches at reaches
  unfold final at moves agrees
  cases step : read cursor with
  | error stop after =>
      rw [step] at moves agrees
      have whole : (read >>= next) cursor = .error stop after := by rw [bind_eq, step]
      constructor
      · rwa [final, whole]
      · rw [final, whole]
        intro tokens ahead rest passes left short
        rw [bind_eq, agrees tokens ahead rest passes left short]
        rfl
  | ok result after =>
      rw [step] at reaches moves agrees
      obtain ⟨tokens, passes, holds⟩ := reaches
      have later := there tokens result after (ready.of_passes passes) passes holds
      have whole : (read >>= next) cursor = next result after := by rw [bind_eq, step]
      have ends : final (read >>= next) cursor = final (next result) after := by
        rw [final, whole, final]
      obtain ⟨more, onward⟩ := later.moves
      have total := passes.trans onward
      rw [List.nil_append] at total
      constructor
      · obtain ⟨extra, same⟩ := moves
        cases same.unique passes
        rw [ends]
        exact ⟨extra ++ more, by simpa using total⟩
      · rw [ends, whole]
        intro all ahead rest passesAll left short
        cases passesAll.unique total
        obtain ⟨between, first, second⟩ := Cursor.Passes.refill_split onward left
        have counted := congrArg List.length first
        simp only [List.length_cons, List.length_append] at counted
        rw [bind_eq, agrees tokens ahead between passes first short]
        exact later.agrees more between rest onward second (by omega)

end Local

theorem local_pure (result : Result) : Local (pure result) (pure result) limit cursor [] :=
  .of_stays rfl fun _ => rfl

theorem local_reject (diagnostic : Diagnostic) :
    Local (reject diagnostic : Read Result) (reject diagnostic) limit cursor [] :=
  .of_stays rfl fun _ => rfl

theorem local_unexpected :
    Local (unexpected : Read Result) unexpected limit cursor [] :=
  .of_stays rfl fun _ => rfl

theorem local_current_bind {next otherNext : Token → Read Next}
    (there : Local (next cursor.current) (otherNext cursor.current) limit cursor front) :
    Local (current >>= next) (current >>= otherNext) limit cursor front :=
  ⟨there.moves, there.agrees⟩

-- Of the cursor itself, a read may use what is not ahead.
theorem local_get_bind {next otherNext : Cursor → Read Next}
    (there : Local (next cursor) (otherNext cursor) limit cursor front)
    (same : ∀ ahead, otherNext (cursor.refill ahead) = otherNext cursor) :
    Local (get >>= next) (get >>= otherNext) limit cursor front where
  moves := there.moves
  agrees tokens ahead rest passes left short := by
    change otherNext (cursor.refill ahead) (cursor.refill ahead) = _
    rw [same]
    exact there.agrees tokens ahead rest passes left short

theorem local_advance (closed : cursor.Closed) (inside : cursor.current.kind ≠ .eof) :
    Local advance advance limit cursor [cursor.current] where
  moves := ⟨[], closed.passes_advance inside⟩
  agrees tokens ahead rest passes left _ := by
    have onward := closed.passes_advance inside
    cases passes.unique onward
    obtain ⟨_, rfl⟩ := List.cons.inj left
    have moved : (⟨cursor.current :: cursor.passed, cursor.advance.current, rest⟩ : Cursor) =
        cursor.advance.refill rest := by
      rw [Cursor.refill, onward.passed]
      rfl
    exact congrArg (EStateM.Result.ok cursor.current) moved

theorem local_expect_of_kind (closed : cursor.Closed) {kind : TokenKind}
    (inside : kind ≠ .eof) (fits : cursor.current.kind = kind) :
    Local (expect kind) (expect kind) limit cursor [cursor.current] := by
  apply (local_advance closed (fits ▸ inside)).congr
  · rw [expect_eq, if_pos fits, advance_eq]
  · intro ahead
    rw [expect_eq]
    exact if_pos fits

theorem local_expect (closed : cursor.Closed) {kind : TokenKind} (inside : kind ≠ .eof) :
    Local (expect kind) (expect kind) limit cursor [] := by
  by_cases fits : cursor.current.kind = kind
  · exact (local_expect_of_kind closed inside fits).forget
  · apply Local.of_stays
    · rw [final, expect_eq, if_neg fits]
    · intro ahead
      rw [expect_eq, expect_eq, if_neg fits]
      exact if_neg fits

-- What is passed by a read that begins with the current token.
theorem local_advance_bind (ready : cursor.Ready) (inside : cursor.current.kind ≠ .eof)
    {next otherNext : Token → Read Next}
    (there : ∀ after, after.Ready → cursor.Passes [cursor.current] after →
      Local (next cursor.current) (otherNext cursor.current) (limit - 1) after []) :
    Local (advance >>= next) (advance >>= otherNext) limit cursor [cursor.current] := by
  have reaches : Reaches advance cursor fun tokens token _ =>
      tokens = [cursor.current] ∧ token = cursor.current :=
    ⟨[cursor.current], ready.closed.passes_advance inside, rfl, rfl⟩
  apply (local_advance ready.closed inside).bind ready reaches
  rintro _ _ after readyNext passes ⟨rfl, rfl⟩
  exact there after readyNext passes

theorem local_expect_bind (ready : cursor.Ready) {kind : TokenKind} (inside : kind ≠ .eof)
    {next otherNext : Token → Read Next}
    (there : ∀ token after, after.Ready → cursor.Passes [token] after → token.kind = kind →
      Local (next token) (otherNext token) (limit - 1) after []) :
    Local (expect kind >>= next) (expect kind >>= otherNext) limit cursor [] := by
  apply (local_expect ready.closed inside).bind ready (reaches_expect ready inside)
  rintro _ token after readyNext passes ⟨rfl, fits⟩
  exact there token after readyNext passes fits

/-! ### Expressions -/

theorem local_primary (ready : cursor.Ready) (inside : cursor.current.kind ≠ .eof) :
    Local primary primary limit cursor [] := by
  apply local_current_bind
  cases cursor.current.operand with
  | ok expr => exact (local_advance_bind ready inside fun _ _ _ => local_pure expr).forget
  | error fault => exact local_reject _

theorem local_groupingOf {inner otherInner : Read Expr} (ready : cursor.Ready)
    (opens : cursor.current.kind = .openParen)
    (reaches : ∀ cursor : Cursor, cursor.Ready →
      Reaches inner cursor fun tokens expr _ => expr.ReadFrom .expression tokens)
    (inside : ∀ start : Cursor, start.Ready → start.left.length < cursor.left.length →
      Local inner otherInner (limit - 1) start []) :
    Local (groupingOf inner) (groupingOf otherInner) limit cursor [] := by
  refine (local_advance_bind ready (by simp [opens]) ?_).forget
  intro afterOpen readyInner passes
  apply (inside afterOpen readyInner passes.length_lt).bind readyInner (reaches afterOpen readyInner)
  intro tokens expr afterInner readyClose _ _
  apply local_expect_bind readyClose (by decide)
  intro _ _ _ _ _
  exact local_pure expr

theorem local_operandOf {inner otherInner : Read Expr} (ready : cursor.Ready)
    (reaches : ∀ cursor : Cursor, cursor.Ready →
      Reaches inner cursor fun tokens expr _ => expr.ReadFrom .expression tokens)
    (inside : ∀ start : Cursor, start.Ready → start.left.length < cursor.left.length →
      Local inner otherInner (limit - 1) start []) :
    Local (operandOf language inner) (operandOf language otherInner) limit cursor [] := by
  apply local_current_bind
  cases starts : language.operand? cursor.current.kind with
  | none => exact local_unexpected
  | some form =>
      cases form with
      | primary => exact local_primary ready (Grammar.operand?_primary starts)
      | grouping =>
          exact local_groupingOf ready (Grammar.operand?_grouping starts) reaches inside

theorem local_operationOf {right otherRight : Read Expr} (ready : cursor.Ready) (lhs : Expr)
    {good : List Token → Expr → Cursor → Prop}
    (reaches : ∀ cursor : Cursor, cursor.Ready → Reaches right cursor good)
    (inside : ∀ start : Cursor, start.Ready → start.left.length < cursor.left.length →
      Local right otherRight (limit - 1) start []) :
    Local (operationOf right lhs) (operationOf otherRight lhs) limit cursor [] := by
  apply local_current_bind
  cases found : cursor.current.kind.operator? with
  | none => exact local_unexpected
  | some operator =>
      have sign : cursor.current.kind ≠ .eof := by
        intro ends
        rw [ends] at found
        cases found
      refine (local_advance_bind ready sign ?_).forget
      intro afterSign readyRight passes
      apply (inside afterSign readyRight passes.length_lt).bind readyRight
        (reaches afterSign readyRight)
      intro _ rhs _ _ _ _
      exact local_pure _

def LocalExpr (bound : List Token) : Prop :=
  ∀ more power cursor, Cursor.Ready cursor → cursor.left.length ≤ bound.length →
    Local (exprWithin language bound power) (exprWithin language more power) more.length cursor []

def LocalExtend (bound : List Token) : Prop :=
  ∀ more power cursor before left, Cursor.Ready cursor →
    Extendable power before (Expr.bare left) cursor.current.kind →
    cursor.left.length ≤ bound.length →
    Local (extendWithin language bound power left) (extendWithin language more power left)
      more.length cursor []

theorem localExpr_cons {first : Token} {bound : List Token} (inner : LocalExpr bound)
    (later : LocalExtend bound) : LocalExpr (first :: bound) := by
  intro more power cursor ready enough
  cases more with
  | nil => exact .of_reaches ((reaches_within (first :: bound)).1 power cursor ready)
  | cons _ more =>
      have reaches (start : Cursor) (ready : start.Ready) :=
        ((reaches_within bound).1 .lowest start ready).mono fun _ _ _ holds => holds.1
      have operand : Local (operandOf language (exprWithin language bound .lowest))
          (operandOf language (exprWithin language more .lowest)) (more.length + 1) cursor [] := by
        apply local_operandOf ready reaches
        intro start readyStart shorter
        exact inner more .lowest start readyStart (by simp at enough; omega)
      apply operand.bind ready (reaches_operandOf ready reaches)
      intro tokens left after readyRest passes factor
      have positive := factor.length_pos
      have counted := passes.length_left
      have rest := later more power after tokens left readyRest (.of_factor factor.derives)
        (by simp at enough; omega)
      exact rest.mono (by simp; omega)

theorem localExtend_cons {first : Token} {bound : List Token} (inner : LocalExpr bound)
    (later : LocalExtend bound) : LocalExtend (first :: bound) := by
  intro more power cursor before left ready extendable enough
  cases more with
  | nil =>
      exact .of_reaches
        ((reaches_within (first :: bound)).2 power cursor before left ready extendable)
  | cons _ more =>
      apply local_current_bind
      dsimp only
      split
      · exact local_pure left
      rename_i tight
      have binds : power.rank < Grammar.rank cursor.current.kind := Nat.lt_of_not_le tight
      split
      · rename_i joins
        have second := (reaches_within bound).1 (language.power cursor.current.kind)
        have operation : Local
            (operationOf (exprWithin language bound (language.power cursor.current.kind)) left)
            (operationOf (exprWithin language more (language.power cursor.current.kind)) left)
            (more.length + 1) cursor [] := by
          apply local_operationOf ready left second
          intro start readyStart shorter
          exact inner more _ start readyStart (by simp at enough; omega)
        obtain ⟨_, found⟩ := Grammar.operator?_of_joins joins
        have starts := reaches_operationOf ready found (Grammar.joins_ne_eof joins) left second
        have extended := reaches_extension ready extendable joins binds second
        apply operation.bind ready (starts.and extended)
        rintro _ whole after readyRest passes ⟨⟨tokens, _, rfl, _⟩, extended, _⟩
        have counted := passes.length_left
        have rest := later more power after _ whole readyRest extended
          (by simp at enough counted; omega)
        exact rest.mono (by simp)
      · exact local_unexpected

theorem local_within (bound : List Token) : LocalExpr bound ∧ LocalExtend bound := by
  induction bound with
  | nil =>
      constructor
      · intro _ _ cursor _ enough
        exact absurd enough (Nat.not_succ_le_zero _)
      · intro _ _ cursor _ _ _ _ enough
        exact absurd enough (Nat.not_succ_le_zero _)
  | cons first bound ih => exact ⟨localExpr_cons ih.1 ih.2, localExtend_cons ih.1 ih.2⟩

theorem local_expr {power : Power} (ready : cursor.Ready) :
    Local (expr language power) (expr language power) limit cursor [] :=
  .of_left (fun bound => exprWithin language bound power) fun more =>
    (local_within cursor.left).1 more power cursor ready (Nat.le_refl _)

/-! ### Sheets -/

theorem local_selector_of_selects (ready : cursor.Ready) {selector : Selector}
    (selects : Selects cursor.current selector) :
    Local Read.selector Read.selector limit cursor [cursor.current] := by
  apply local_current_bind
  rw [selects.selector_eq (ready.signed _ List.mem_cons_self)]
  exact local_advance_bind ready selects.within.2 fun _ _ _ => local_pure selector

theorem local_selector (ready : cursor.Ready) : Local selector selector limit cursor [] := by
  rcases Token.selector_cases (ready.signed _ List.mem_cons_self) with
    ⟨selector, selects, _, _⟩ | rejected
  · exact (local_selector_of_selects ready selects).forget
  · apply local_current_bind
    rw [rejected]
    exact .of_stays rfl fun _ => rfl

theorem local_selectorsWithin (bound more : List Token) {cursor : Cursor} {front : List Token}
    (ready : cursor.Ready) (enough : cursor.left.length ≤ bound.length)
    (first : ∀ limit, Local selector selector limit cursor front) :
    Local (selectorsWithin bound) (selectorsWithin more) more.length cursor front := by
  induction bound generalizing cursor front more with
  | nil => exact absurd enough (Nat.not_succ_le_zero _)
  | cons head bound ih =>
      have step (token : Token) (more : List Token) :
          Local (selectorsWithin (head :: bound)) (selectorsWithin (token :: more))
            (more.length + 1) cursor front := by
        apply (first _).bind ready (reaches_selector ready)
        rintro _ selector after readyNext passes ⟨token, rfl, selects⟩
        apply local_current_bind
        split
        · rename_i divides
          refine (local_advance_bind readyNext (by simp [divides]) ?_).forget
          intro afterComma readyLater onward
          have counted := passes.length_left
          have fewer := onward.length_lt
          have rest := ih more readyLater (by simp at enough counted; omega)
            (fun _ => local_selector readyLater)
          apply (rest.mono (by simp)).bind readyLater (reaches_selectorsWithin bound readyLater)
          intro _ _ _ _ _ _
          exact local_pure _
        · exact local_pure _
      cases more with
      | nil => exact (step cursor.current []).limit_zero
      | cons token more => exact step token more

theorem local_selectors (ready : cursor.Ready)
    (first : ∀ limit, Local selector selector limit cursor front) :
    Local selectors selectors limit cursor front :=
  .of_left selectorsWithin fun more =>
    local_selectorsWithin cursor.left more ready (Nat.le_refl _) first

theorem local_value {finish : Expr → Read Next} (ready : cursor.Ready)
    (last : ∀ value limit after, Local (finish value) (finish value) limit after []) :
    Local (do
      let _ ← expect .colon
      let value ← expr language .lowest
      let _ ← expect .semicolon
      finish value) (do
      let _ ← expect .colon
      let value ← expr language .lowest
      let _ ← expect .semicolon
      finish value) limit cursor [] := by
  apply local_expect_bind ready (by decide)
  intro _ afterColon readyValue _ _
  apply (local_expr readyValue).bind readyValue (reaches_expr readyValue)
  intro _ value afterValue readyEnd _ _
  apply local_expect_bind readyEnd (by decide)
  intro _ afterEnd _ _ _
  exact last value _ afterEnd

theorem local_assignment (ready : cursor.Ready) :
    Local (assignment language) (assignment language) limit cursor [] := by
  apply local_expect_bind ready (by decide)
  intro name afterName readyColon _ _
  apply local_value readyColon
  intro value limit after
  exact local_get_bind (local_pure _) fun _ => rfl

theorem local_declaration (ready : cursor.Ready)
    (first : Local (expect .identifier) (expect .identifier) limit cursor front) :
    Local (declaration language) (declaration language) limit cursor front := by
  apply first.bind ready (reaches_expect ready (by decide))
  rintro _ name afterName readyColon _ ⟨rfl, _⟩
  split
  · exact local_reject _
  · apply local_value readyColon
    intro value limit after
    exact local_get_bind (local_pure _) fun _ => rfl

theorem local_ruleOf {inner otherInner : Read Body} (ready : cursor.Ready)
    (first : ∀ limit, Local selector selector limit cursor front)
    (reaches : ∀ cursor : Cursor, cursor.Ready →
      Reaches inner cursor fun tokens body _ => body.ReadFrom .rule tokens)
    (inside : ∀ start : Cursor, start.Ready → start.left.length < cursor.left.length →
      Local inner otherInner (limit - 1) start []) :
    Local (ruleOf inner) (ruleOf otherInner) limit cursor front := by
  apply local_get_bind
  · apply (local_selectors ready first).bind ready (reaches_selectorsWithin cursor.left ready)
    intro heads selectors afterHeads readyOpen passes _
    apply local_expect_bind readyOpen (by decide)
    intro _ afterOpen readyInner onward _
    have counted := passes.length_left
    have fewer := onward.length_lt
    have within := inside afterOpen readyInner (by omega)
    apply (within.mono (by omega)).bind readyInner (reaches afterOpen readyInner)
    intro _ body afterInner readyClose _ _
    apply local_expect_bind readyClose (by decide)
    intro _ afterClose _ _ _
    exact local_get_bind (local_pure _) fun _ => rfl
  · intro ahead
    rfl

theorem bodyItemOf_eq (inner : Read Body) (cursor : Cursor) :
    bodyItemOf language inner cursor =
      (if cursor.current.kind = .variableName then do return .assignment (← assignment language)
        else if cursor.current.kind = .identifier ∧ cursor.following = .colon then do
          return .declaration (← declaration language)
        else ruleOf inner : Read Item) cursor := by
  have looked (next : Cursor → Read Item) : (do next (← get) : Read Item) cursor =
      next cursor cursor := rfl
  rw [bodyItemOf, looked]
  cases cursor.current.kind <;> simp

theorem following_refill {after : Cursor} {extra ahead rest : List Token}
    (passes : cursor.Passes (cursor.current :: extra) after)
    (left : cursor.current :: ahead = cursor.current :: extra ++ after.current :: rest) :
    (cursor.refill ahead).following = cursor.following := by
  have here : cursor.ahead = extra ++ after.current :: after.ahead := (List.cons.inj passes.left).2
  have there : ahead = extra ++ after.current :: rest := (List.cons.inj left).2
  rw [Cursor.following, Cursor.following, here, Cursor.refill, there]
  cases extra with
  | nil => rfl
  | cons next extra => rfl

-- Both kinds of item that a name can start pass the name, so the token after it is the same.
theorem local_item_of_name {inner otherInner : Read Body} (ready : cursor.Ready)
    (named : cursor.current.kind = .identifier)
    (reaches : ∀ cursor : Cursor, cursor.Ready →
      Reaches inner cursor fun tokens body _ => body.ReadFrom .rule tokens)
    (inside : ∀ start : Cursor, start.Ready → start.left.length < cursor.left.length →
      Local inner otherInner (limit - 1) start []) :
    Local (bodyItemOf language inner) (bodyItemOf language otherInner) limit cursor
      [cursor.current] := by
  have choice (inner : Read Body) (ahead : List Token) :
      bodyItemOf language inner (cursor.refill ahead) =
        (if (cursor.refill ahead).following = .colon then do
          return .declaration (← declaration language)
          else ruleOf inner : Read Item) (cursor.refill ahead) := by
    have named : (cursor.refill ahead).current.kind = .identifier := named
    rw [bodyItemOf_eq]
    simp only [named, reduceCtorEq, if_false, true_and]
  have decided : Local (bodyItemOf language inner)
      (if cursor.following = .colon then do return .declaration (← declaration language)
        else ruleOf otherInner) limit cursor [cursor.current] := by
    split
    · rename_i colon
      have declared : Local (do return Item.declaration (← declaration language))
          (do return Item.declaration (← declaration language)) limit cursor [cursor.current] := by
        have first : Local (expect .identifier) (expect .identifier) limit cursor
            [cursor.current] := local_expect_of_kind ready.closed (by decide) named
        apply (local_declaration ready first).bind ready (reaches_declaration ready)
        intro _ _ _ _ _ _
        exact local_pure _
      apply declared.congr ((choice inner cursor.ahead).trans _) fun _ => rfl
      exact congrFun (if_pos colon) cursor
    · rename_i other
      have first (limit : Nat) : Local selector selector limit cursor [cursor.current] :=
        local_selector_of_selects ready (.tag named)
      apply (local_ruleOf ready first reaches inside).congr ((choice inner cursor.ahead).trans _)
        fun _ => rfl
      exact congrFun (if_neg other) cursor
  refine ⟨decided.moves, ?_⟩
  intro tokens ahead rest passes left short
  obtain ⟨extra, moves⟩ := decided.moves
  cases passes.unique moves
  rw [choice, following_refill moves left]
  exact decided.agrees _ ahead rest passes left short

theorem local_bodyItemOf {inner otherInner : Read Body} (ready : cursor.Ready)
    (reaches : ∀ cursor : Cursor, cursor.Ready →
      Reaches inner cursor fun tokens body _ => body.ReadFrom .rule tokens)
    (inside : ∀ start : Cursor, start.Ready → start.left.length < cursor.left.length →
      Local inner otherInner (limit - 1) start []) :
    Local (bodyItemOf language inner) (bodyItemOf language otherInner) limit cursor [] := by
  by_cases named : cursor.current.kind = .identifier
  · exact (local_item_of_name ready named reaches inside).forget
  by_cases assigns : cursor.current.kind = .variableName
  · have assigned : Local (do return Item.assignment (← assignment language))
        (do return Item.assignment (← assignment language)) limit cursor [] := by
      apply (local_assignment ready).bind ready (reaches_assignment .rule ready)
      intro _ _ _ _ _ _
      exact local_pure _
    apply assigned.congr
    · rw [bodyItemOf_eq, if_pos assigns]
    · intro ahead
      rw [bodyItemOf_eq]
      exact congrFun (if_pos assigns) _
  · have rule := local_ruleOf ready (fun _ => local_selector ready) reaches inside
    have choice (inner : Read Body) (ahead : List Token) :
        bodyItemOf language inner (cursor.refill ahead) = ruleOf inner (cursor.refill ahead) := by
      have notName : (cursor.refill ahead).current.kind ≠ .identifier := named
      have notVariable : (cursor.refill ahead).current.kind ≠ .variableName := assigns
      rw [bodyItemOf_eq, if_neg notVariable, if_neg fun named => notName named.1]
    exact rule.congr (choice inner cursor.ahead) (choice otherInner)

theorem local_bodyWithin (bound more : List Token) {cursor : Cursor} (ready : cursor.Ready)
    (enough : cursor.left.length ≤ bound.length) :
    Local (bodyWithin language bound) (bodyWithin language more) more.length cursor [] := by
  induction bound generalizing cursor more with
  | nil => exact absurd enough (Nat.not_succ_le_zero _)
  | cons head bound ih =>
      cases more with
      | nil => exact .of_reaches (reaches_bodyWithin (head :: bound) ready)
      | cons _ more =>
          apply local_current_bind
          split
          · exact local_pure _
          · exact local_pure _
          · have reaches (start : Cursor) (ready : start.Ready) :=
              reaches_bodyWithin bound ready
            have item : Local (bodyItemOf language (bodyWithin language bound))
                (bodyItemOf language (bodyWithin language more)) (more.length + 1) cursor [] := by
              apply local_bodyItemOf ready reaches
              intro start readyStart shorter
              exact ih more readyStart (by simp at enough; omega)
            apply item.bind ready (reaches_bodyItemOf ready reaches)
            intro tokens item after readyLater passes heads
            have positive := heads.length_pos
            have counted := passes.length_left
            have rest := ih more readyLater (by simp at enough; omega)
            apply (rest.mono (by simp; omega)).bind readyLater (reaches after readyLater)
            intro _ _ _ _ _ _
            exact local_pure _

theorem local_body (ready : cursor.Ready) :
    Local (body language) (body language) limit cursor [] :=
  .of_left (bodyWithin language) fun more =>
    local_bodyWithin cursor.left more ready (Nat.le_refl _)

theorem local_sheetItem (ready : cursor.Ready) :
    Local (sheetItem language) (sheetItem language) limit cursor [] := by
  apply local_current_bind
  split
  · apply (local_assignment ready).bind ready (reaches_assignment .sheet ready)
    intro _ _ _ _ _ _
    exact local_pure _
  · apply local_ruleOf ready (fun _ => local_selector ready)
    · intro start ready
      exact reaches_bodyWithin start.left ready
    · intro start ready _
      exact local_body ready

theorem local_sheetWithin (bound more : List Token) {cursor : Cursor} (ready : cursor.Ready)
    (enough : cursor.left.length ≤ bound.length) :
    Local (sheetWithin language bound) (sheetWithin language more) more.length cursor [] := by
  induction bound generalizing cursor more with
  | nil => exact absurd enough (Nat.not_succ_le_zero _)
  | cons head bound ih =>
      cases more with
      | nil => exact .of_reaches (reaches_sheetWithin (head :: bound) ready)
      | cons _ more =>
          apply local_get_bind
          · split
            · exact local_pure _
            · apply (local_sheetItem ready).bind ready (reaches_sheetItem ready)
              intro tokens item after readyLater passes heads
              have positive := heads.length_pos
              have counted := passes.length_left
              have rest := ih more readyLater (by simp at enough; omega)
              apply (rest.mono (by simp; omega)).bind readyLater
                (reaches_sheetWithin bound readyLater)
              intro _ _ _ _ _ _
              exact local_pure _
          · intro ahead
            rfl

theorem local_sheetBody (ready : cursor.Ready) :
    Local (sheetBody language) (sheetBody language) limit cursor [] :=
  .of_left (sheetWithin language) fun more =>
    local_sheetWithin cursor.left more ready (Nat.le_refl _)

end Read

theorem Cursor.ofTokens_cons (first : Token) (later : List Token) (file : String) :
    ∃ extra, ofTokens (first :: later) file = ⟨[], first, later ++ extra⟩ := by
  unfold ofTokens
  dsimp only
  split
  · exact ⟨[], by rw [List.append_nil]⟩
  · exact ⟨_, rfl⟩

theorem Cursor.passed_ofTokens (tokens : List Token) (file : String) :
    (ofTokens tokens file).passed = [] := by
  cases tokens with
  | nil => rfl
  | cons first later => rfl

/-- Tokens that begin like those read so far, the one where reading has stopped included, are read
to the same end. -/
theorem Read.sheetBody_of_front {cursor after : Cursor} (ready : cursor.Ready)
    (start : cursor.passed = []) (stops : final (sheetBody language) cursor = after)
    {front : List Token} (passes : cursor.Passes front after) (more : List Token)
    (file : String) :
    ∃ rest, sheetBody language (Cursor.ofTokens (front ++ after.current :: more) file) =
      refilled rest (sheetBody language cursor) := by
  obtain ⟨later, begins⟩ : ∃ later, front ++ after.current :: more = cursor.current :: later := by
    have left := passes.left
    cases front with
    | nil => exact ⟨more, by rw [(List.cons.inj left).1]; rfl⟩
    | cons first front => exact ⟨_, by rw [(List.cons.inj left).1]; rfl⟩
  obtain ⟨extra, same⟩ := Cursor.ofTokens_cons cursor.current later file
  have refill : Cursor.ofTokens (front ++ after.current :: more) file =
      cursor.refill (later ++ extra) := by
    rw [begins, same, Cursor.refill, start]
  cases stops
  refine ⟨more ++ extra, ?_⟩
  rw [refill]
  apply (local_sheetBody ready).agrees front _ _ passes _ (Nat.lt_succ_self _)
  rw [← List.cons_append, ← begins, List.append_assoc, List.cons_append]

end TypedStyle
