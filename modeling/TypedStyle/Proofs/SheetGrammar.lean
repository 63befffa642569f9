import TypedStyle.Proofs.ExprGrammar

/-!
The grammar of stylesheets. What is read derives from it:

    sheet       := (assignment | rule)*
    assignment  := VARIABLE ':' expression ';'
    rule        := selector (',' selector)* '{' (declaration | assignment | rule)* '}'
    declaration := PROPERTY ':' expression ';'

Two tokens decide which kind of item comes next, so that no choice is ever taken back.
-/

namespace TypedStyle

open Grammar (language)

def Assignment.bare (assigned : Assignment) : Assignment :=
  { assigned with value := assigned.value.bare, span := .null }

def Declaration.bare (declared : Declaration) : Declaration :=
  { declared with value := declared.value.bare, span := .null }

def Body.bare : Body → Body
  | .empty => .empty
  | .declaration declared later => .declaration declared.bare later.bare
  | .assignment assigned later => .assignment assigned.bare later.bare
  | .rule selectors inner _ later => .rule selectors inner.bare .null later.bare

def Item.bare : Item → Item
  | .declaration declared => .declaration declared.bare
  | .assignment assigned => .assignment assigned.bare
  | .rule selectors inner _ => .rule selectors inner.bare .null

theorem Body.bare_cons (item : Item) (later : Body) :
    (Body.cons item later).bare = Body.cons item.bare later.bare := by
  cases item <;> rfl

theorem Body.diagnostics_bare (body : Body) : body.bare.diagnostics = body.diagnostics := by
  induction body with
  | empty => rfl
  | declaration declared later ih =>
      simp only [bare, diagnostics, Declaration.diagnostics, Declaration.bare,
        Expr.diagnostics_bare, ih]
  | assignment assigned later ih =>
      simp only [bare, diagnostics, Assignment.bare, Expr.diagnostics_bare, ih]
  | rule selectors inner span later ihInner ihLater =>
      simp only [bare, diagnostics, ihInner, ihLater]

inductive DerivesSelectors : List Token → List Selector → Prop where
  | one {token : Token} {selector : Selector} (selects : Selects token selector) :
      DerivesSelectors [token] [selector]
  | more {token comma : Token} {selector : Selector} {tokens : List Token}
      {selectors : List Selector} (selects : Selects token selector)
      (divides : comma.kind = .comma) (later : DerivesSelectors tokens selectors) :
      DerivesSelectors (token :: comma :: tokens) (selector :: selectors)

inductive DerivesAssignment : List Token → Assignment → Prop where
  | intro {name colon semicolon : Token} {value : List Token} {tree : Expr}
      (named : name.kind = .variableName) (divides : colon.kind = .colon)
      (expression : Derives .expression value tree) (ends : semicolon.kind = .semicolon) :
      DerivesAssignment (name :: colon :: (value ++ [semicolon])) ⟨name.text, tree, .null⟩

inductive DerivesDeclaration : List Token → Declaration → Prop where
  | intro {name colon semicolon : Token} {property : Property} {value : List Token} {tree : Expr}
      (named : name.kind = .identifier) (known : name.text = property.name)
      (divides : colon.kind = .colon) (expression : Derives .expression value tree)
      (ends : semicolon.kind = .semicolon) :
      DerivesDeclaration (name :: colon :: (value ++ [semicolon])) ⟨property, tree, .null, none⟩

inductive Level where
  | sheet
  | rule
  deriving DecidableEq

/-- The tokens derive as the items of a body. A declaration stands only in a rule. -/
inductive DerivesBody : Level → List Token → Body → Prop where
  | empty {level : Level} : DerivesBody level [] .empty
  | declaration {tokens more : List Token} {declared : Declaration} {later : Body}
      (first : DerivesDeclaration tokens declared) (rest : DerivesBody .rule more later) :
      DerivesBody .rule (tokens ++ more) (.declaration declared later)
  | assignment {level : Level} {tokens more : List Token} {assigned : Assignment} {later : Body}
      (first : DerivesAssignment tokens assigned) (rest : DerivesBody level more later) :
      DerivesBody level (tokens ++ more) (.assignment assigned later)
  | rule {level : Level} {heads inside more : List Token} {opening closing : Token}
      {selectors : List Selector} {inner later : Body}
      (first : DerivesSelectors heads selectors) (opens : opening.kind = .openCurly)
      (body : DerivesBody .rule inside inner) (closes : closing.kind = .closeCurly)
      (rest : DerivesBody level more later) :
      DerivesBody level (heads ++ opening :: (inside ++ closing :: more))
        (.rule selectors inner .null later)

/-- The tokens write the items of the body, and these have their spans from them: a declaration and
an assignment run from the name to the semicolon, and a rule from the first selector to the closing
brace. -/
inductive Body.SpannedBy : Body → List Token → Prop where
  | empty : SpannedBy .empty []
  | declaration {name colon semicolon : Token} {value more : List Token} {property : Property}
      {tree : Expr} {later : Body} (named : name.kind = .identifier)
      (known : name.text = property.name) (divides : colon.kind = .colon)
      (expression : tree.SpannedBy value) (ends : semicolon.kind = .semicolon)
      (rest : later.SpannedBy more) :
      SpannedBy
        (.declaration ⟨property, tree, ⟨name.span.start, semicolon.span.stop⟩, none⟩ later)
        (name :: colon :: (value ++ semicolon :: more))
  | assignment {name colon semicolon : Token} {value more : List Token} {tree : Expr}
      {later : Body} (named : name.kind = .variableName) (divides : colon.kind = .colon)
      (expression : tree.SpannedBy value) (ends : semicolon.kind = .semicolon)
      (rest : later.SpannedBy more) :
      SpannedBy (.assignment ⟨name.text, tree, ⟨name.span.start, semicolon.span.stop⟩⟩ later)
        (name :: colon :: (value ++ semicolon :: more))
  | rule {first opening closing : Token} {heads inside more : List Token}
      {selectors : List Selector} {inner later : Body}
      (selects : DerivesSelectors (first :: heads) selectors) (opens : opening.kind = .openCurly)
      (body : inner.SpannedBy inside) (closes : closing.kind = .closeCurly)
      (rest : later.SpannedBy more) :
      SpannedBy (.rule selectors inner ⟨first.span.start, closing.span.stop⟩ later)
        (first :: (heads ++ opening :: (inside ++ closing :: more)))

structure Body.ReadFrom (level : Level) (tokens : List Token) (body : Body) : Prop where
  derives : DerivesBody level tokens body.bare
  spanned : body.SpannedBy tokens

/-- The tokens derive as an item: put in front of a body they make a body. -/
def HeadsBody (level : Level) (tokens : List Token) (item : Item) : Prop :=
  ∀ more later, DerivesBody level more later →
    DerivesBody level (tokens ++ more) (Body.cons item later)

structure Item.ReadFrom (level : Level) (tokens : List Token) (item : Item) : Prop where
  heads : HeadsBody level tokens item.bare
  spanned : ∀ more later, later.SpannedBy more → (Body.cons item later).SpannedBy (tokens ++ more)

theorem Body.ReadFrom.empty (level : Level) : Body.empty.ReadFrom level [] := ⟨.empty, .empty⟩

theorem Item.ReadFrom.cons {level : Level} {tokens more : List Token} {item : Item} {later : Body}
    (first : item.ReadFrom level tokens) (rest : later.ReadFrom level more) :
    (Body.cons item later).ReadFrom level (tokens ++ more) where
  derives := by
    rw [Body.bare_cons]
    exact first.heads more later.bare rest.derives
  spanned := first.spanned more later rest.spanned

theorem DerivesBody.unmarked {level : Level} {tokens : List Token} {tree : Body}
    (derives : DerivesBody level tokens tree) : tree.diagnostics = [] := by
  induction derives with
  | empty => rfl
  | declaration first rest ih =>
      cases first with
      | intro _ _ _ expression _ =>
          simp [Body.diagnostics, Declaration.diagnostics, expression.unmarked, ih]
  | assignment first rest ih =>
      cases first with
      | intro _ _ expression _ => simp [Body.diagnostics, expression.unmarked, ih]
  | rule _ _ _ _ _ ihInner ihLater => simp [Body.diagnostics, ihInner, ihLater]

theorem Selects.within {token : Token} {selector : Selector} (selects : Selects token selector) :
    token.kind ≠ .closeCurly ∧ token.kind ≠ .eof := by
  cases selects with
  | tag kind | byClass kind _ | byId kind _ => simp [kind]

theorem Property.ofName?_eq_some {name : String} {property : Property} :
    ofName? name = some property ↔ name = property.name := by
  constructor
  · intro found
    have same := List.find?_some found
    exact (beq_iff_eq.mp same).symm
  · rintro rfl
    exact ofName?_name property

theorem Cursor.Passes.previous_eq {before after : Cursor} {token : Token}
    (passes : before.Passes [token] after) : after.previous = token := by
  simp [Cursor.previous, passes.passed]

/-! ### What is read derives from the grammar -/

namespace Read

theorem reaches_selector {cursor : Cursor} (ready : cursor.Ready) :
    Reaches selector cursor fun tokens selector _ =>
      ∃ token, tokens = [token] ∧ Selects token selector := by
  apply reaches_current_bind
  rcases Token.selector_cases (ready.signed _ List.mem_cons_self) with
    ⟨selector, selects, read, inside⟩ | rejected
  · rw [read]
    apply (reaches_advance ready inside).bind ready
    rintro _ _ after _ _ rfl
    exact reaches_pure ⟨cursor.current, rfl, selects⟩
  · rw [rejected]
    exact ⟨[], .refl cursor, .unexpectedToken cursor.current.text, rfl, Or.inl rfl⟩

theorem reaches_selectorsWithin (bound : List Token) {cursor : Cursor} (ready : cursor.Ready) :
    Reaches (selectorsWithin bound) cursor fun tokens selectors _ =>
      DerivesSelectors tokens selectors := by
  induction bound generalizing cursor with
  | nil => exact reaches_unexpected
  | cons _ bound ih =>
      apply (reaches_selector ready).bind ready
      rintro _ selector after readyNext _ ⟨token, rfl, selects⟩
      apply reaches_current_bind
      split
      · rename_i divides
        apply (reaches_advance readyNext (by simp [divides])).bind readyNext
        rintro _ _ afterComma readyLater _ rfl
        apply (ih readyLater).bind readyLater
        intro tokens selectors _ _ _ later
        exact reaches_pure (by simpa using .more selects divides later)
      · exact reaches_pure (.one selects)

-- An assignment and a declaration go on in the same way after their names.
theorem reaches_value {Next : Type} {finish : Expr → Read Next} {cursor : Cursor}
    (ready : cursor.Ready) {good : List Token → Next → Cursor → Prop}
    (last : ∀ (colon semicolon : Token) (tokens : List Token) (value : Expr) (after : Cursor),
      colon.kind = .colon → value.ReadFrom .expression tokens →
      semicolon.kind = .semicolon → after.previous = semicolon →
      Reaches (finish value) after fun more => good (colon :: (tokens ++ semicolon :: more))) :
    Reaches (do
      let _ ← expect .colon
      let value ← expr language .lowest
      let _ ← expect .semicolon
      finish value) cursor good := by
  apply (reaches_expect ready (by decide)).bind ready
  rintro _ colon afterColon readyValue _ ⟨rfl, divides⟩
  apply (reaches_expr readyValue).bind readyValue
  intro tokens value afterValue readyEnd _ expression
  apply (reaches_expect readyEnd (by decide)).bind readyEnd
  rintro _ semicolon afterEnd _ passes ⟨rfl, ends⟩
  apply (last colon semicolon tokens value afterEnd divides expression ends passes.previous_eq).mono
  intro more result final holds
  simpa using holds

theorem reaches_assignment (level : Level) {cursor : Cursor} (ready : cursor.Ready) :
    Reaches (assignment language) cursor fun tokens assigned _ =>
      (Item.assignment assigned).ReadFrom level tokens := by
  apply (reaches_expect ready (by decide)).bind ready
  rintro _ name afterName readyColon _ ⟨rfl, named⟩
  apply reaches_value readyColon
  rintro colon semicolon tokens value after divides ⟨derives, spanned⟩ ends previous
  apply reaches_get_bind
  apply reaches_pure
  rw [Cursor.spanFrom, previous]
  constructor
  · intro more later rest
    exact .assignment (.intro named divides derives ends) rest
  · intro more later rest
    simpa [Body.cons] using Body.SpannedBy.assignment named divides spanned ends rest

theorem reaches_declaration {cursor : Cursor} (ready : cursor.Ready) :
    Reaches (declaration language) cursor fun tokens declared _ =>
      (Item.declaration declared).ReadFrom .rule tokens := by
  apply (reaches_expect ready (by decide)).bind ready
  rintro _ name afterName readyColon passes ⟨rfl, named⟩
  split
  · -- The name has been passed, so the rejection is about the token before the cursor.
    refine ⟨[], .refl afterName, .unknownProperty name.text, rfl, Or.inr ?_⟩
    rw [passes.previous_eq]
    exact ⟨rfl, rfl⟩
  · rename_i property known
    have known := Property.ofName?_eq_some.mp known
    apply reaches_value readyColon
    rintro colon semicolon tokens value after divides ⟨derives, spanned⟩ ends previous
    apply reaches_get_bind
    apply reaches_pure
    rw [Cursor.spanFrom, previous]
    constructor
    · intro more later rest
      exact .declaration (.intro named known divides derives ends) rest
    · intro more later rest
      simpa [Body.cons] using Body.SpannedBy.declaration named known divides spanned ends rest

theorem reaches_ruleOf (level : Level) {inner : Read Body} {cursor : Cursor} (ready : cursor.Ready)
    (inside : ∀ cursor : Cursor, cursor.Ready →
      Reaches inner cursor fun tokens body _ => body.ReadFrom .rule tokens) :
    Reaches (ruleOf inner) cursor fun tokens item _ => item.ReadFrom level tokens := by
  apply reaches_get_bind
  apply (reaches_selectorsWithin cursor.left ready).bind ready
  intro heads selectors afterHeads readyOpen passesHeads selects
  apply (reaches_expect readyOpen (by decide)).bind readyOpen
  rintro _ opening afterOpen readyInner _ ⟨rfl, opens⟩
  apply (inside afterOpen readyInner).bind readyInner
  rintro tokens body afterInner readyClose _ ⟨derives, spanned⟩
  apply (reaches_expect readyClose (by decide)).bind readyClose
  rintro _ closing afterClose _ passes ⟨rfl, closes⟩
  apply reaches_get_bind
  apply reaches_pure
  constructor
  · intro more later rest
    simpa [Item.bare, Body.cons] using DerivesBody.rule selects opens derives closes rest
  · -- The rule starts at the token that was current then, which is the first selector.
    obtain ⟨first, others, rfl⟩ : ∃ first others, heads = first :: others := by
      cases selects <;> exact ⟨_, _, rfl⟩
    have start : cursor.position = first.span.start :=
      congrArg (fun token => token.span.start) (Cursor.current_eq_of_left passesHeads.left)
    intro more later rest
    rw [start, Cursor.spanFrom, passes.previous_eq]
    simpa [Body.cons] using Body.SpannedBy.rule selects opens spanned closes rest

theorem reaches_bodyItemOf {inner : Read Body} {cursor : Cursor} (ready : cursor.Ready)
    (inside : ∀ cursor : Cursor, cursor.Ready →
      Reaches inner cursor fun tokens body _ => body.ReadFrom .rule tokens) :
    Reaches (bodyItemOf language inner) cursor fun tokens item _ =>
      item.ReadFrom .rule tokens := by
  apply reaches_get_bind
  split
  · apply (reaches_assignment .rule ready).bind ready
    intro tokens assigned _ _ _ read
    exact reaches_pure (by simpa using read)
  · split
    · apply (reaches_declaration ready).bind ready
      intro tokens declared _ _ _ read
      exact reaches_pure (by simpa using read)
    · exact reaches_ruleOf .rule ready inside
  · exact reaches_ruleOf .rule ready inside

theorem reaches_bodyWithin (bound : List Token) {cursor : Cursor} (ready : cursor.Ready) :
    Reaches (bodyWithin language bound) cursor fun tokens body _ =>
      body.ReadFrom .rule tokens := by
  induction bound generalizing cursor with
  | nil => exact reaches_unexpected
  | cons _ bound ih =>
      apply reaches_current_bind
      split
      · exact reaches_pure (.empty .rule)
      · exact reaches_pure (.empty .rule)
      · apply (reaches_bodyItemOf ready fun _ ready => ih ready).bind ready
        intro tokens item after readyLater _ first
        apply (ih readyLater).bind readyLater
        intro more later _ _ _ rest
        exact reaches_pure (by simpa using first.cons rest)

theorem reaches_sheetItem {cursor : Cursor} (ready : cursor.Ready) :
    Reaches (sheetItem language) cursor fun tokens item _ => item.ReadFrom .sheet tokens := by
  apply reaches_current_bind
  split
  · apply (reaches_assignment .sheet ready).bind ready
    intro tokens assigned _ _ _ read
    exact reaches_pure (by simpa using read)
  · exact reaches_ruleOf .sheet ready fun cursor ready => reaches_bodyWithin cursor.left ready

theorem reaches_sheetWithin (bound : List Token) {cursor : Cursor} (ready : cursor.Ready) :
    Reaches (sheetWithin language bound) cursor fun tokens body after =>
      body.ReadFrom .sheet tokens ∧ after.current.kind = .eof := by
  induction bound generalizing cursor with
  | nil => exact reaches_unexpected
  | cons _ bound ih =>
      apply reaches_get_bind
      split
      · rename_i ends
        exact reaches_pure ⟨.empty .sheet, by simpa [Cursor.atEnd] using ends⟩
      · apply (reaches_sheetItem ready).bind ready
        intro tokens item after readyLater _ first
        apply (ih readyLater).bind readyLater
        rintro more later last _ _ ⟨rest, ends⟩
        exact reaches_pure ⟨by simpa using first.cons rest, ends⟩

end Read

theorem Cursor.left_ofTokens (tokens : List Token) (file : String) {last : Token}
    (ends : last.kind = .eof) : (ofTokens (tokens ++ [last]) file).left = tokens ++ [last] := by
  cases tokens with
  | nil => simp [ofTokens, left, ends]
  | cons first later => simp [ofTokens, left, ends]

theorem Cursor.ready_ofTokens {tokens : List Token} (file : String) {last : Token}
    (ends : last.kind = .eof) (signed : ∀ token ∈ tokens, token.Signed) :
    (ofTokens (tokens ++ [last]) file).Ready := by
  have left := left_ofTokens tokens file ends
  constructor
  · exact ⟨last, by simp [left], ends⟩
  · intro token member
    rw [left, List.mem_append, List.mem_singleton] at member
    rcases member with member | rfl
    · exact signed token member
    · exact Token.signed_of_eof ends

namespace Sheet

variable {tokens : List Token} {last : Token}

/-- Reading a sheet stops at the first `eof` or at a fault of reading. -/
theorem ofTokens_cases (file : String) (ends : last.kind = .eof)
    (signed : ∀ token ∈ tokens, token.Signed) :
    (∃ sheet front next rest, Sheet.ofTokens (tokens ++ [last]) file = .ok sheet ∧
      tokens ++ [last] = front ++ next :: rest ∧ next.kind = .eof ∧
      sheet.body.ReadFrom .sheet front ∧ sheet.span = ⟨⟨0, file⟩, next.span.start⟩) ∨
    ∃ diagnostic, Sheet.ofTokens (tokens ++ [last]) file = .error (.fault diagnostic) ∧
      diagnostic.fault.stage = .reading := by
  have ready := Cursor.ready_ofTokens file ends signed
  have left := Cursor.left_ofTokens tokens file ends
  have reached := Read.reaches_sheetWithin
    (Cursor.ofTokens (tokens ++ [last]) file).left ready
  unfold Read.Reaches at reached
  unfold Sheet.ofTokens Read.sheetBody
  cases read : Read.sheetWithin language (Cursor.ofTokens (tokens ++ [last]) file).left
      (Cursor.ofTokens (tokens ++ [last]) file) with
  | ok body after =>
      rw [read] at reached
      obtain ⟨front, passes, whole, atEnd⟩ := reached
      left
      exact ⟨_, front, after.current, after.ahead, rfl, left ▸ passes.left, atEnd, whole, rfl⟩
  | error stop after =>
      rw [read] at reached
      obtain ⟨front, passes, fault, stage, rfl | ⟨_, rfl⟩⟩ := reached
      · right
        exact ⟨_, rfl, stage⟩
      · right
        exact ⟨_, rfl, stage⟩

end Sheet

end TypedStyle
