import TypedStyle.Proofs.Locality
import TypedStyle.Proofs.SheetReading

/-!
Faults of reading are found at the first token that cannot go on. Wherever a read is rejected, the
tokens passed so far can be completed to what it looks for; and since reading looks no further than
it gets, nothing that goes on with the rejected token is ever accepted.
-/

namespace TypedStyle

open Grammar (language rank)

def Token.Plain (tokens : List Token) : Prop := ∀ token ∈ tokens, token.kind ≠ .eof ∧ token.Signed

/-- The tokens are the front of some for which `whole` holds. -/
def Opens (whole : List Token → Prop) (tokens : List Token) : Prop :=
  ∃ more, Token.Plain more ∧ whole (tokens ++ more)

namespace Opens

variable {whole larger : List Token → Prop} {tokens : List Token}

theorem of_whole (holds : whole tokens) : Opens whole tokens :=
  ⟨[], by simp [Token.Plain], by simpa using holds⟩

theorem trans (opens : Opens whole tokens)
    (further : ∀ tokens, whole tokens → Opens larger tokens) : Opens larger tokens := by
  obtain ⟨more, plain, holds⟩ := opens
  obtain ⟨last, plainLast, holds⟩ := further _ holds
  refine ⟨more ++ last, ?_, by simpa using holds⟩
  intro token member
  rcases List.mem_append.mp member with member | member
  · exact plain token member
  · exact plainLast token member

theorem append {front : List Token} (opens : Opens (fun tokens => whole (front ++ tokens)) tokens) :
    Opens whole (front ++ tokens) := by
  obtain ⟨more, plain, holds⟩ := opens
  exact ⟨more, plain, by simpa using holds⟩

end Opens

def Token.mark (kind : TokenKind) : Token := ⟨kind, "0", .null⟩

theorem Token.plain_mark {kind : TokenKind}
    (plain : kind ≠ .eof ∧ kind ≠ .classSelector ∧ kind ≠ .hash) : Plain [mark kind] := by
  intro token member
  cases List.mem_singleton.mp member
  exact ⟨plain.1, Token.signed_of_kind plain.2⟩

theorem Opens.mark {whole : List Token → Prop} {tokens : List Token} (kind : TokenKind)
    (plain : kind ≠ .eof ∧ kind ≠ .classSelector ∧ kind ≠ .hash)
    (opens : Opens whole (tokens ++ [Token.mark kind])) : Opens whole tokens := by
  obtain ⟨more, plainMore, holds⟩ := opens
  refine ⟨Token.mark kind :: more, ?_, by simpa using holds⟩
  intro token member
  rcases List.mem_cons.mp member with rfl | member
  · exact Token.plain_mark plain _ List.mem_cons_self
  · exact plainMore token member

def IsLayer (layer : Layer) (tokens : List Token) : Prop := ∃ tree, Derives layer tokens tree

theorem opens_layer (power : Power) : Opens (IsLayer power.layer) [] := by
  have zero : WritesMagnitude "0" "" 0 :=
    ⟨['0'], .unsigned ⟨by simp, List.forall_mem_singleton.mpr rfl⟩, Or.inl rfl⟩
  have factor : Derives .factor [Token.mark .scalar] (.literal (.scalar 0) .null) :=
    .operand (.scalar rfl zero)
  have holds : Extendable power [Token.mark .scalar] _ .eof := .of_factor factor
  exact .mark .scalar (by decide) (.of_whole ⟨_, holds.derives⟩)

theorem Extendable.isLayer_join {power : Power} {before right : List Token} {tree : Expr}
    {sign : Token} (extendable : Extendable power before tree sign.kind)
    (joins : language.joins sign.kind = true) (binds : power.rank < rank sign.kind)
    (second : IsLayer (language.power sign.kind).layer right) :
    IsLayer power.layer (before ++ sign :: right) := by
  obtain ⟨rhs, second⟩ := second
  rcases Grammar.joins_cases joins with ⟨plus | dash, additive⟩ | ⟨star, multiplicative⟩
  · rw [additive] at second
    have sum : Extendable power _ _ .eof := extendable.sum (.plus plus) binds second (by decide)
    exact ⟨_, sum.derives⟩
  · rw [additive] at second
    have sum : Extendable power _ _ .eof := extendable.sum (.dash dash) binds second (by decide)
    exact ⟨_, sum.derives⟩
  · rw [multiplicative] at second
    have product : Extendable power _ _ .eof := extendable.product star binds second
    exact ⟨_, product.derives⟩

def IsSelectors (tokens : List Token) : Prop := ∃ selectors, DerivesSelectors tokens selectors

def IsItem (level : Level) (tokens : List Token) : Prop := ∃ item, HeadsBody level tokens item

def IsBody (level : Level) (tokens : List Token) : Prop := ∃ tree, DerivesBody level tokens tree

theorem IsItem.isBody {level : Level} {tokens : List Token} (item : IsItem level tokens) :
    IsBody level tokens := by
  obtain ⟨item, heads⟩ := item
  exact ⟨_, by simpa using heads [] .empty .empty⟩

theorem isItem_rule {level : Level} {heads inside : List Token} {opening closing : Token}
    (first : IsSelectors heads) (opens : opening.kind = .openCurly) (body : IsBody .rule inside)
    (closes : closing.kind = .closeCurly) :
    IsItem level (heads ++ opening :: (inside ++ [closing])) := by
  obtain ⟨selectors, first⟩ := first
  obtain ⟨inner, body⟩ := body
  refine ⟨.rule selectors inner .null, ?_⟩
  intro more later rest
  simpa [Body.cons] using DerivesBody.rule first opens body closes rest

/-- Selectors can always go on as a rule without items. -/
theorem opens_rule {level : Level} {tokens : List Token} (heads : IsSelectors tokens) :
    Opens (IsItem level) tokens := by
  have rule : IsItem level (tokens ++ Token.mark .openCurly :: ([] ++ [Token.mark .closeCurly])) :=
    isItem_rule heads rfl ⟨_, .empty⟩ rfl
  apply Opens.mark .openCurly (by decide)
  apply Opens.mark .closeCurly (by decide)
  exact .of_whole (by simpa using rule)

theorem isSelectors_name {name : Token} (named : name.kind = .identifier) : IsSelectors [name] :=
  ⟨_, .one (.tag named)⟩

theorem opens_item (level : Level) : Opens (IsItem level) [] :=
  .mark .identifier (by decide) (opens_rule (isSelectors_name rfl))

inductive Cursor.Blames (cursor : Cursor) : Stop Diagnostic → Prop where
  | current {fault : Fault} (refuses : fault.Refuses cursor.current.text) :
      Blames cursor (.fault ⟨fault, cursor.position⟩)
  | name {name : Token} {earlier : List Token} (passed : cursor.passed = name :: earlier)
      (colon : cursor.current.kind = .colon) :
      Blames cursor (.fault ⟨.unknownProperty name.text, name.span.start⟩)

namespace Read

variable {Result Next : Type}

def Completes (read : Read Result) (cursor : Cursor) (whole : List Token → Prop) : Prop :=
  match read cursor with
  | .ok _ _ => True
  | .error stop after =>
      after.Blames stop ∧ ∃ tokens, cursor.Passes tokens after ∧ Opens whole tokens

variable {cursor : Cursor} {whole part : List Token → Prop}

theorem Completes.bind {read : Read Result} {next : Result → Read Next}
    {middle : List Token → Result → Cursor → Prop} (ready : cursor.Ready)
    (here : Completes read cursor part) (reaches : Reaches read cursor middle)
    (further : ∀ tokens, part tokens → Opens whole tokens)
    (there : ∀ tokens result after, after.Ready → cursor.Passes tokens after →
      middle tokens result after →
      Completes (next result) after fun more => whole (tokens ++ more)) :
    Completes (read >>= next) cursor whole := by
  unfold Completes Reaches at *
  rw [bind_eq]
  cases step : read cursor with
  | error stop after =>
      rw [step] at here
      obtain ⟨blames, tokens, passes, opens⟩ := here
      exact ⟨blames, tokens, passes, opens.trans further⟩
  | ok result after =>
      rw [step] at reaches
      obtain ⟨tokens, passes, holds⟩ := reaches
      have rest := there tokens result after (ready.of_passes passes) passes holds
      dsimp only
      cases last : next result after with
      | ok result final => trivial
      | error stop final =>
          rw [last] at rest
          obtain ⟨blames, more, onward, opens⟩ := rest
          exact ⟨blames, tokens ++ more, passes.trans onward, opens.append⟩

theorem completes_pure (result : Result) : Completes (pure result) cursor whole := trivial

theorem completes_unexpected (opens : Opens whole []) :
    Completes (unexpected : Read Result) cursor whole :=
  ⟨.current .token, [], .refl cursor, opens⟩

theorem completes_reject {fault : Fault} (refuses : fault.Refuses cursor.current.text)
    (opens : Opens whole []) :
    Completes (reject ⟨fault, cursor.position⟩ : Read Result) cursor whole :=
  ⟨.current refuses, [], .refl cursor, opens⟩

theorem completes_current_bind {next : Token → Read Next}
    (there : Completes (next cursor.current) cursor whole) :
    Completes (current >>= next) cursor whole := there

theorem completes_get_bind {next : Cursor → Read Next}
    (there : Completes (next cursor) cursor whole) :
    Completes (get >>= next) cursor whole := there

theorem completes_advance_bind {next : Token → Read Next} (ready : cursor.Ready)
    (inside : cursor.current.kind ≠ .eof)
    (there : ∀ token after, after.Ready →
      Completes (next token) after fun more => whole (cursor.current :: more)) :
    Completes (advance >>= next) cursor whole := by
  have here : Completes advance cursor fun _ => False := trivial
  apply here.bind ready (reaches_advance ready inside) fun _ => False.elim
  rintro _ token after readyNext _ rfl
  exact there token after readyNext

theorem completes_expect_bind {kind : TokenKind} {next : Token → Read Next} (ready : cursor.Ready)
    (inside : kind ≠ .eof) (opens : Opens whole [])
    (there : ∀ token after, after.Ready → cursor.Passes [token] after → token.kind = kind →
      Completes (next token) after fun more => whole (token :: more)) :
    Completes (expect kind >>= next) cursor whole := by
  have here : Completes (expect kind) cursor whole := by
    unfold Completes
    rw [expect_eq]
    by_cases fits : cursor.current.kind = kind
    · rw [if_pos fits]
      trivial
    · rw [if_neg fits]
      exact ⟨.current .token, [], .refl cursor, opens⟩
  apply here.bind ready (reaches_expect ready inside) fun _ => Opens.of_whole
  rintro _ token after readyNext passes ⟨rfl, fits⟩
  exact there token after readyNext passes fits

theorem completes_primary (ready : cursor.Ready) (inside : cursor.current.kind ≠ .eof) :
    Completes primary cursor (IsLayer .factor) := by
  apply completes_current_bind
  cases failed : cursor.current.operand with
  | ok expr => exact completes_advance_bind ready inside fun _ _ _ => completes_pure expr
  | error fault =>
      exact completes_reject (Token.refuses_of_operand failed) (opens_layer .primary)

theorem completes_groupingOf {inner : Read Expr} (ready : cursor.Ready)
    (opens : cursor.current.kind = .openParen)
    (reaches : ∀ cursor : Cursor, cursor.Ready →
      Reaches inner cursor fun tokens expr _ => expr.ReadFrom .expression tokens)
    (inside : ∀ cursor : Cursor, cursor.Ready → Completes inner cursor (IsLayer .expression)) :
    Completes (groupingOf inner) cursor (IsLayer .factor) := by
  -- Whatever stands after the opening parenthesis can be closed.
  have closes {tokens : List Token} (holds : IsLayer .expression tokens) :
      Opens (fun more => IsLayer .factor (cursor.current :: more)) tokens := by
    obtain ⟨tree, derives⟩ := holds
    have group : Derives .factor (cursor.current :: (tokens ++ [Token.mark .closeParen])) tree :=
      .group opens derives rfl
    exact .mark .closeParen (by decide) (.of_whole ⟨tree, group⟩)
  apply completes_advance_bind ready (by simp [opens])
  intro _ afterOpen readyInner
  apply (inside afterOpen readyInner).bind readyInner (reaches afterOpen readyInner)
  · intro tokens holds
    exact closes holds
  · intro tokens expr afterInner readyClose _ read
    apply completes_expect_bind readyClose (by decide)
    · exact closes ⟨_, read.derives⟩
    · intro _ _ _ _ _
      exact completes_pure expr

theorem completes_operandOf {inner : Read Expr} (ready : cursor.Ready)
    (reaches : ∀ cursor : Cursor, cursor.Ready →
      Reaches inner cursor fun tokens expr _ => expr.ReadFrom .expression tokens)
    (inside : ∀ cursor : Cursor, cursor.Ready → Completes inner cursor (IsLayer .expression)) :
    Completes (operandOf language inner) cursor (IsLayer .factor) := by
  apply completes_current_bind
  cases starts : language.operand? cursor.current.kind with
  | none => exact completes_unexpected (opens_layer .primary)
  | some form =>
      cases form with
      | primary => exact completes_primary ready (Grammar.operand?_primary starts)
      | grouping =>
          exact completes_groupingOf ready (Grammar.operand?_grouping starts) reaches inside

theorem completes_operationOf {right : Read Expr} (ready : cursor.Ready) {operator : Operator}
    (found : cursor.current.kind.operator? = some operator) (inside : cursor.current.kind ≠ .eof)
    (lhs : Expr) {good : List Token → Expr → Cursor → Prop}
    (reaches : ∀ cursor : Cursor, cursor.Ready → Reaches right cursor good)
    (second : ∀ cursor : Cursor, cursor.Ready → Completes right cursor part)
    (joined : ∀ tokens, part tokens → whole (cursor.current :: tokens)) :
    Completes (operationOf right lhs) cursor whole := by
  apply completes_current_bind
  rw [found]
  apply completes_advance_bind ready inside
  intro _ afterSign readyRight
  apply (second afterSign readyRight).bind readyRight (reaches afterSign readyRight)
  · intro tokens holds
    exact .of_whole (joined tokens holds)
  · intro _ _ _ _ _ _
    exact completes_pure _

theorem completes_within (bound : List Token) :
    (∀ power cursor, Cursor.Ready cursor →
      Completes (exprWithin language bound power) cursor (IsLayer power.layer)) ∧
    (∀ power cursor before left, Cursor.Ready cursor →
      Extendable power before (Expr.bare left) cursor.current.kind →
      Completes (extendWithin language bound power left) cursor fun tokens =>
        IsLayer power.layer (before ++ tokens)) := by
  induction bound with
  | nil =>
      constructor
      · intro power cursor _
        exact completes_unexpected (opens_layer power)
      · intro power cursor before left _ extendable
        exact completes_unexpected (.of_whole ⟨_, by simpa using extendable.derives⟩)
  | cons _ bound ih =>
      obtain ⟨ihExpr, ihExtend⟩ := ih
      constructor
      · intro power cursor ready
        have reaches (start : Cursor) (ready : start.Ready) :=
          ((reaches_within bound).1 .lowest start ready).mono fun _ _ _ holds => holds.1
        apply (completes_operandOf ready reaches (ihExpr .lowest)).bind ready
          (reaches_operandOf ready reaches)
        · rintro tokens ⟨tree, factor⟩
          have holds : Extendable power tokens tree .eof := .of_factor factor
          exact .of_whole ⟨tree, holds.derives⟩
        · intro tokens left after readyRest _ factor
          exact ihExtend power after tokens left readyRest (.of_factor factor.derives)
      · intro power cursor before left ready extendable
        apply completes_current_bind
        dsimp only
        split
        · exact completes_pure left
        rename_i tight
        have binds : power.rank < rank cursor.current.kind := Nat.lt_of_not_le tight
        split
        · rename_i joins
          obtain ⟨_, found⟩ := Grammar.operator?_of_joins joins
          have second := (reaches_within bound).1 (language.power cursor.current.kind)
          have operation : Completes
              (operationOf (exprWithin language bound (language.power cursor.current.kind)) left)
              cursor fun tokens => IsLayer power.layer (before ++ tokens) :=
            completes_operationOf ready found (Grammar.joins_ne_eof joins) left second (ihExpr _)
              fun _ holds => extendable.isLayer_join joins binds holds
          apply operation.bind ready (reaches_extension ready extendable joins binds second)
          · intro tokens holds
            exact Opens.of_whole holds
          · rintro tokens whole after readyRest _ ⟨extended, _⟩
            have rest := ihExtend power after (before ++ tokens) whole readyRest extended
            simpa only [List.append_assoc] using rest
        · exact completes_unexpected (.of_whole ⟨_, by simpa using extendable.derives⟩)

theorem completes_expr (ready : cursor.Ready) :
    Completes (expr language .lowest) cursor (IsLayer .expression) :=
  (completes_within cursor.left).1 .lowest cursor ready

theorem completes_selector (ready : cursor.Ready) (opens : Opens whole []) :
    Completes selector cursor whole := by
  apply completes_current_bind
  rcases Token.selector_cases (ready.signed _ List.mem_cons_self) with
    ⟨selector, _, read, inside⟩ | rejected
  · rw [read]
    exact completes_advance_bind ready inside fun _ _ _ => completes_pure selector
  · rw [rejected]
    exact ⟨.current .token, [], .refl cursor, opens⟩

theorem completes_selectorsWithin (bound : List Token) {cursor : Cursor} (ready : cursor.Ready) :
    Completes (selectorsWithin bound) cursor IsSelectors := by
  have nothing : Opens IsSelectors [] :=
    .mark .identifier (by decide) (.of_whole (isSelectors_name rfl))
  induction bound generalizing cursor with
  | nil => exact completes_unexpected nothing
  | cons _ bound ih =>
      apply (completes_selector ready nothing).bind ready (reaches_selector ready)
      · intro tokens holds
        exact .of_whole holds
      rintro _ selector after readyNext _ ⟨token, rfl, selects⟩
      apply completes_current_bind
      split
      · rename_i divides
        apply completes_advance_bind readyNext (by simp [divides])
        intro _ afterComma readyLater
        apply (ih readyLater).bind readyLater (reaches_selectorsWithin bound readyLater)
        · rintro tokens ⟨selectors, later⟩
          exact .of_whole ⟨_, .more selects divides later⟩
        · intro _ _ _ _ _ _
          exact completes_pure _
      · exact completes_pure _

theorem completes_value {finish : Expr → Read Next} (ready : cursor.Ready)
    (item : ∀ (colon semicolon : Token) (value : List Token), colon.kind = .colon →
      IsLayer .expression value → semicolon.kind = .semicolon →
      whole (colon :: (value ++ [semicolon])))
    (last : ∀ value after whole, Completes (finish value) after whole) :
    Completes (do
      let _ ← expect .colon
      let value ← expr language .lowest
      let _ ← expect .semicolon
      finish value) cursor whole := by
  have ended {colon : Token} (divides : colon.kind = .colon) (value : List Token)
      (expression : IsLayer .expression value) :
      Opens (fun more => whole (colon :: more)) value :=
    .mark .semicolon (by decide) (.of_whole (item colon _ value divides expression rfl))
  have begun : Opens whole ([Token.mark .colon] ++ []) :=
    Opens.append ((opens_layer .lowest).trans (ended rfl))
  apply completes_expect_bind ready (by decide) (.mark .colon (by decide) begun)
  intro colon afterColon readyValue _ divides
  apply (completes_expr readyValue).bind readyValue (reaches_expr readyValue) (ended divides)
  intro tokens value afterValue readyEnd _ expression
  apply completes_expect_bind readyEnd (by decide) (ended divides tokens ⟨_, expression.derives⟩)
  intro _ afterEnd _ _ _
  exact last value afterEnd _

theorem completes_assignment (level : Level) (ready : cursor.Ready) :
    Completes (assignment language) cursor (IsItem level) := by
  apply completes_expect_bind ready (by decide) (opens_item level)
  intro name afterName readyColon _ named
  apply completes_value readyColon
  · rintro colon semicolon value divides ⟨tree, expression⟩ ends
    refine ⟨.assignment ⟨name.text, tree, .null⟩, ?_⟩
    intro more later rest
    exact .assignment (.intro named divides expression ends) rest
  · intro value after whole
    exact completes_get_bind (completes_pure _)

-- A name that is no property could still be the selector of a rule.
theorem completes_declaration (ready : cursor.Ready) (follows : cursor.following = .colon) :
    Completes (declaration language) cursor (IsItem .rule) := by
  apply completes_expect_bind ready (by decide) (opens_item .rule)
  intro name afterName readyColon passes named
  split
  · have colon : afterName.current.kind = .colon := by
      have ahead := (List.cons.inj passes.left).2
      rw [← follows, Cursor.following, ahead]
      rfl
    exact ⟨.name passes.passed colon, [], .refl afterName, opens_rule (isSelectors_name named)⟩
  · rename_i property known
    apply completes_value readyColon
    · rintro colon semicolon value divides ⟨tree, expression⟩ ends
      refine ⟨.declaration ⟨property, tree, .null, none⟩, ?_⟩
      intro more later rest
      have known := Property.ofName?_eq_some.mp known
      exact .declaration (.intro named known divides expression ends) rest
    · intro value after whole
      exact completes_get_bind (completes_pure _)

theorem completes_ruleOf (level : Level) {inner : Read Body} (ready : cursor.Ready)
    (reaches : ∀ cursor : Cursor, cursor.Ready →
      Reaches inner cursor fun tokens body _ => body.ReadFrom .rule tokens)
    (inside : ∀ cursor : Cursor, cursor.Ready → Completes inner cursor (IsBody .rule)) :
    Completes (ruleOf inner) cursor (IsItem level) := by
  apply completes_get_bind
  apply (completes_selectorsWithin cursor.left ready).bind ready
    (reaches_selectorsWithin cursor.left ready) fun _ => opens_rule
  intro heads selectors afterHeads readyOpen _ first
  have headed : Opens (fun more => IsItem level (heads ++ more)) [] :=
    opens_rule ⟨selectors, first⟩
  apply completes_expect_bind readyOpen (by decide) headed
  intro opening afterOpen readyInner _ opens
  have closed (tokens : List Token) (body : IsBody .rule tokens) :
      Opens (fun more => IsItem level (heads ++ opening :: more)) tokens :=
    .mark .closeCurly (by decide) (.of_whole (isItem_rule ⟨selectors, first⟩ opens body rfl))
  apply (inside afterOpen readyInner).bind readyInner (reaches afterOpen readyInner) closed
  intro tokens body afterInner readyClose _ read
  apply completes_expect_bind readyClose (by decide) (closed tokens ⟨_, read.derives⟩)
  intro _ afterClose _ _ _
  exact completes_get_bind (completes_pure _)

theorem completes_bodyItemOf {inner : Read Body} (ready : cursor.Ready)
    (reaches : ∀ cursor : Cursor, cursor.Ready →
      Reaches inner cursor fun tokens body _ => body.ReadFrom .rule tokens)
    (inside : ∀ cursor : Cursor, cursor.Ready → Completes inner cursor (IsBody .rule)) :
    Completes (bodyItemOf language inner) cursor (IsItem .rule) := by
  apply completes_get_bind
  split
  · apply (completes_assignment .rule ready).bind ready (reaches_assignment .rule ready)
      fun _ => Opens.of_whole
    intro _ _ _ _ _ _
    exact completes_pure _
  · split
    · rename_i follows
      apply (completes_declaration ready follows).bind ready (reaches_declaration ready)
        fun _ => Opens.of_whole
      intro _ _ _ _ _ _
      exact completes_pure _
    · exact completes_ruleOf .rule ready reaches inside
  · exact completes_ruleOf .rule ready reaches inside

-- An item that can be completed is a body that can be, and so is a body after an item.
theorem completes_items {level : Level} {item : Read Item} {later : Read Body}
    {good : List Token → Body → Cursor → Prop} (ready : cursor.Ready)
    (first : Completes item cursor (IsItem level))
    (reaches : Reaches item cursor fun tokens item _ => item.ReadFrom level tokens)
    (reachesLater : ∀ cursor : Cursor, cursor.Ready → Reaches later cursor good)
    (rest : ∀ cursor : Cursor, cursor.Ready → Completes later cursor (IsBody level)) :
    Completes (do
      let item ← item
      return Body.cons item (← later)) cursor (IsBody level) := by
  apply first.bind ready reaches
  · intro tokens item
    exact .of_whole item.isBody
  intro tokens item after readyLater _ read
  apply (rest after readyLater).bind readyLater (reachesLater after readyLater)
  · rintro more ⟨tree, derives⟩
    exact .of_whole ⟨_, read.heads more tree derives⟩
  · intro _ _ _ _ _ _
    exact completes_pure _

theorem completes_bodyWithin (bound : List Token) {cursor : Cursor} (ready : cursor.Ready) :
    Completes (bodyWithin language bound) cursor (IsBody .rule) := by
  induction bound generalizing cursor with
  | nil => exact completes_unexpected (.of_whole ⟨_, .empty⟩)
  | cons _ bound ih =>
      have reaches (cursor : Cursor) (ready : cursor.Ready) :
          Reaches (bodyWithin language bound) cursor fun tokens body _ =>
            body.ReadFrom .rule tokens := reaches_bodyWithin bound ready
      have inside (cursor : Cursor) (ready : cursor.Ready) :
          Completes (bodyWithin language bound) cursor (IsBody .rule) := ih ready
      apply completes_current_bind
      split
      · exact completes_pure _
      · exact completes_pure _
      · exact completes_items ready (completes_bodyItemOf ready reaches inside)
          (reaches_bodyItemOf ready reaches) reaches inside

theorem completes_sheetItem (ready : cursor.Ready) :
    Completes (sheetItem language) cursor (IsItem .sheet) := by
  apply completes_current_bind
  split
  · apply (completes_assignment .sheet ready).bind ready (reaches_assignment .sheet ready)
      fun _ => Opens.of_whole
    intro _ _ _ _ _ _
    exact completes_pure _
  · apply completes_ruleOf .sheet ready
    · intro start ready
      exact reaches_bodyWithin start.left ready
    · intro start ready
      exact completes_bodyWithin start.left ready

theorem completes_sheetWithin (bound : List Token) {cursor : Cursor} (ready : cursor.Ready) :
    Completes (sheetWithin language bound) cursor (IsBody .sheet) := by
  induction bound generalizing cursor with
  | nil => exact completes_unexpected (.of_whole ⟨_, .empty⟩)
  | cons _ bound ih =>
      apply completes_get_bind
      split
      · exact completes_pure _
      · exact completes_items ready (completes_sheetItem ready) (reaches_sheetItem ready)
          (fun _ ready => reaches_sheetWithin bound ready) fun _ ready => ih ready

end Read

/-! ### The first token that cannot go on -/

namespace Sheet

/-- Some sheet that is read begins with these tokens. -/
def Viable (front : List Token) : Prop :=
  ∃ more, Token.Plain more ∧
    ∀ last file, last.kind = .eof → ∃ sheet, Sheet.ofTokens (front ++ more ++ [last]) file = .ok sheet

/-- Nothing that begins with these tokens is read. -/
def Dead (front : List Token) : Prop :=
  ∀ more file sheet, Sheet.ofTokens (front ++ more) file ≠ .ok sheet

theorem viable_of_opens {front : List Token} (signed : ∀ token ∈ front, token.Signed)
    (opens : Opens (IsBody .sheet) front) : Viable front := by
  obtain ⟨more, plain, tree, derives⟩ := opens
  refine ⟨more, plain, ?_⟩
  intro last file ends
  have signed : ∀ token ∈ front ++ more, token.Signed := by
    intro token member
    rcases List.mem_append.mp member with member | member
    · exact signed token member
    · exact (plain token member).2
  obtain ⟨sheet, read, _⟩ := ofTokens_of_derives file ends signed derives
  exact ⟨sheet, read⟩

theorem dead_of_stops {cursor after : Cursor} {stop : Stop Diagnostic} (ready : cursor.Ready)
    (start : cursor.passed = []) (stopped : Read.sheetBody language cursor = .error stop after)
    {front : List Token} (passes : cursor.Passes front after) : Dead (front ++ [after.current]) := by
  intro more file sheet
  have stops : Read.final (Read.sheetBody language) cursor = after := by
    rw [Read.final, stopped]
  obtain ⟨rest, same⟩ := Read.sheetBody_of_front ready start stops passes more file
  rw [List.append_assoc, List.singleton_append, Sheet.ofTokens, same, stopped]
  rintro ⟨⟩

theorem stopped_of_ofTokens {tokens : List Token} {file : String} {stop : Stop Diagnostic}
    (failed : Sheet.ofTokens tokens file = .error stop) :
    ∃ after, Read.sheetBody language (Cursor.ofTokens tokens file) = .error stop after := by
  unfold Sheet.ofTokens at failed
  split at failed
  · cases failed
  · rename_i other after stopped
    cases failed
    exact ⟨after, stopped⟩

/-- The stop is for the first of the tokens that cannot go on. A name that is no property is found
at the colon after it, and is itself what the stop is about. -/
inductive StopsAtFirst (tokens : List Token) : Stop Diagnostic → Prop where
  | token {front rest : List Token} {token : Token} {fault : Fault}
      (split : tokens = front ++ token :: rest) (refuses : fault.Refuses token.text)
      (viable : Viable front) (dead : Dead (front ++ [token])) :
      StopsAtFirst tokens (.fault ⟨fault, token.span.start⟩)
  | name {front rest : List Token} {name colon : Token}
      (split : tokens = front ++ name :: colon :: rest) (divides : colon.kind = .colon)
      (viable : Viable (front ++ [name])) (dead : Dead (front ++ [name, colon])) :
      StopsAtFirst tokens (.fault ⟨.unknownProperty name.text, name.span.start⟩)

/-- Faults of reading are reported at the first token that cannot go on: what stands before it can
be completed to a sheet that is read, and with it nothing can. -/
theorem ofTokens_stops_at_first (tokens : List Token) (last : Token) (file : String)
    (ends : last.kind = .eof) (signed : ∀ token ∈ tokens, token.Signed) (stop : Stop Diagnostic)
    (failed : Sheet.ofTokens (tokens ++ [last]) file = .error stop) :
    StopsAtFirst (tokens ++ [last]) stop := by
  have ready := Cursor.ready_ofTokens file ends signed
  have left := Cursor.left_ofTokens tokens file ends
  have start := Cursor.passed_ofTokens (tokens ++ [last]) file
  obtain ⟨after, stopped⟩ := stopped_of_ofTokens failed
  generalize Cursor.ofTokens (tokens ++ [last]) file = cursor at *
  have completes : Read.Completes (Read.sheetBody language) cursor (IsBody .sheet) :=
    Read.completes_sheetWithin cursor.left ready
  unfold Read.Completes at completes
  rw [stopped] at completes
  obtain ⟨blames, front, passes, opens⟩ := completes
  have dead := dead_of_stops ready start stopped passes
  have viable : Viable front := by
    apply viable_of_opens _ opens
    intro token member
    exact ready.signed token (by rw [passes.left]; exact List.mem_append_left _ member)
  have split : tokens ++ [last] = front ++ after.current :: after.ahead :=
    left.symm.trans passes.left
  cases blames with
  | current refuses => exact .token split refuses viable dead
  | @name name earlier passed colon =>
      have fronts : front = earlier.reverse ++ [name] := by
        rw [passes.passed, start, List.append_nil] at passed
        rw [← List.reverse_reverse front, passed, List.reverse_cons]
      rw [fronts, List.append_assoc] at split dead
      rw [fronts] at viable
      exact .name split colon viable dead

-- `.p { wdth: 2; }`
def unknownName : List Token :=
  [⟨.classSelector, ".p", .ofBytes 0 2 "s"⟩, ⟨.openCurly, "\x7b", .ofBytes 3 4 "s"⟩,
    ⟨.identifier, "wdth", .ofBytes 5 9 "s"⟩, ⟨.colon, ":", .ofBytes 9 10 "s"⟩,
    ⟨.scalar, "2", .ofBytes 11 12 "s"⟩, ⟨.semicolon, ";", .ofBytes 12 13 "s"⟩,
    ⟨.closeCurly, "\x7d", .ofBytes 14 15 "s"⟩]

theorem unknownName_stops_at_first :
    (∀ token ∈ unknownName, token.Signed) ∧
    Sheet.ofTokens (unknownName ++ [.eof (.ofBytes 15 "s")]) "s" =
      .error (.fault ⟨.unknownProperty "wdth", .ofBytes 5 "s"⟩) ∧
    StopsAtFirst (unknownName ++ [.eof (.ofBytes 15 "s")])
      (.fault ⟨.unknownProperty "wdth", .ofBytes 5 "s"⟩) := by
  have signed : ∀ token ∈ unknownName, token.Signed := by decide
  have failed : Sheet.ofTokens (unknownName ++ [.eof (.ofBytes 15 "s")]) "s" =
      .error (.fault ⟨.unknownProperty "wdth", .ofBytes 5 "s"⟩) := rfl
  exact ⟨signed, failed, ofTokens_stops_at_first unknownName _ "s" rfl signed _ failed⟩

end Sheet

end TypedStyle
