import TypedStyle.Proofs.Relabeling

/-!
Reading tokens at other positions. Reading decides by the kinds and the texts of tokens and carries
their positions along, so moved tokens are read as the tokens are, with the positions moved in the
tree and in what is reported. Sources with the same words thus compile to the same text or have the
same faults.
-/

namespace TypedStyle

section Moved
variable (place : Position → Position)

def Token.move (token : Token) : Token := { token with span := token.span.relabel (.moving place) }

def Cursor.move (cursor : Cursor) : Cursor :=
  ⟨cursor.passed.map (Token.move place), cursor.current.move place,
    cursor.ahead.map (Token.move place)⟩

@[simp] theorem Token.kind_move (token : Token) : (token.move place).kind = token.kind := rfl

@[simp] theorem Token.text_move (token : Token) : (token.move place).text = token.text := rfl

theorem Token.operand_move (token : Token) :
    (token.move place).operand = token.operand.map (Expr.relabel (.moving place)) := by
  have literal {Part : Type} (part : Except Fault Part) (make : Part → Literal) (span : Span) :
      (do return .literal (make (← part)) (span.relabel (.moving place)) : Except Fault Expr) =
        (do return .literal (make (← part)) span : Except Fault Expr).map
          (Expr.relabel (.moving place)) := by
    cases part <;> rfl
  obtain ⟨kind, text, span⟩ := token
  cases kind with
  | pixel | percentage | scalar | hash | identifier => exact literal _ _ span
  | _ => rfl

theorem Token.selector_move (token : Token) :
    (token.move place).selector =
      relabeled (Stop.map (Diagnostic.relabel (.moving place))) id token.selector := by
  have signed (make : String → Selector) : token.signedName.map make =
      relabeled (Stop.map (Diagnostic.relabel (.moving place))) id
        (token.signedName.map make) := by
    unfold signedName
    split
    · split <;> rfl
    · rfl
  obtain ⟨kind, text, span⟩ := token
  cases kind with
  | classSelector | hash => exact signed _
  | _ => rfl

theorem Fault.relabel_moving (fault : Fault) : fault.relabel (.moving place) = fault := by
  cases fault <;> rfl

namespace Cursor
variable (cursor : Cursor)

theorem advance_move : (cursor.move place).advance = cursor.advance.move place := by
  obtain ⟨passed, current, ahead⟩ := cursor
  cases ahead <;> rfl

theorem previous_move : (cursor.move place).previous = cursor.previous.move place := by
  obtain ⟨passed, current, ahead⟩ := cursor
  cases passed <;> rfl

theorem following_move : (cursor.move place).following = cursor.following := by
  obtain ⟨passed, current, ahead⟩ := cursor
  cases ahead <;> rfl

theorem spanFrom_move (start : Position) :
    (cursor.move place).spanFrom (place start) =
      (cursor.spanFrom start).relabel (.moving place) := by
  rw [spanFrom, previous_move]
  rfl

end Cursor

namespace Read
variable {Result Next : Type} {give : Result → Result} {other : Next → Next}

/-- On moved tokens `second` does what `first` does, relabeled, with `give` for its result. -/
def Moves (give : Result → Result) (first second : Read Result) : Prop :=
  ∀ cursor, second (cursor.move place) =
    match first cursor with
    | .ok result after => .ok (give result) (after.move place)
    | .error stop after =>
        .error (stop.map (Diagnostic.relabel (.moving place))) (after.move place)

variable {place}

theorem Moves.bind {first second : Read Result} {next further : Result → Read Next}
    (here : Moves place give first second)
    (there : ∀ result, Moves place other (next result) (further (give result))) :
    Moves place other (first >>= next) (second >>= further) := by
  intro cursor
  rw [bind_eq, bind_eq, here cursor]
  cases first cursor with
  | error stop after => rfl
  | ok result after => exact there result after

theorem Moves.ite {condition other : Prop} [Decidable condition] [Decidable other]
    {first second third fourth : Read Result} (same : condition ↔ other)
    (yes : Moves place give first second) (no : Moves place give third fourth) :
    Moves place give (if condition then first else third) (if other then second else fourth) := by
  by_cases holds : condition
  · rw [if_pos holds, if_pos (same.mp holds)]
    exact yes
  · rw [if_neg holds, if_neg (mt same.mpr holds)]
    exact no

theorem moves_pure (result : Result) : Moves place give (pure result) (pure (give result)) :=
  fun _ => rfl

theorem moves_throw (stop : Stop Diagnostic) :
    Moves place give (throw stop) (throw (stop.map (Diagnostic.relabel (.moving place)))) :=
  fun _ => rfl

theorem moves_reject (fault : Fault) (position : Position) :
    Moves place give (reject ⟨fault, position⟩) (reject ⟨fault, place position⟩) := by
  have thrown : Moves place give _ _ := moves_throw (.fault ⟨fault, position⟩)
  rwa [Stop.map, Diagnostic.relabel, Fault.relabel_moving] at thrown

theorem moves_get : Moves place (Cursor.move place) get get := fun _ => rfl

theorem moves_current : Moves place (Token.move place) current current := fun _ => rfl

theorem moves_advance : Moves place (Token.move place) advance advance := by
  intro cursor
  rw [advance_eq, advance_eq, Cursor.advance_move]
  rfl

theorem moves_unexpected : Moves place give unexpected unexpected :=
  moves_get.bind fun cursor => moves_reject (.unexpectedToken cursor.current.text) cursor.position

theorem moves_expect (kind : TokenKind) :
    Moves place (Token.move place) (expect kind) (expect kind) := by
  refine moves_get.bind fun cursor => moves_current.bind fun token => ?_
  exact .ite Iff.rfl moves_advance
    (moves_reject (.unexpectedToken cursor.current.text) cursor.position)

theorem moves_primary : Moves place (Expr.relabel (.moving place)) primary primary := by
  refine moves_current.bind fun token => ?_
  rw [Token.operand_move]
  cases token.operand with
  | error fault => exact moves_reject fault token.span.start
  | ok expr => exact moves_advance.bind fun _ => moves_pure expr

theorem moves_groupingOf {inner other : Read Expr}
    (inside : Moves place (Expr.relabel (.moving place)) inner other) :
    Moves place (Expr.relabel (.moving place)) (groupingOf inner) (groupingOf other) := by
  refine moves_advance.bind fun _ => inside.bind fun expr => ?_
  exact (moves_expect .closeParen).bind fun _ => moves_pure expr

theorem moves_operationOf {right other : Read Expr} (lhs : Expr)
    (operand : Moves place (Expr.relabel (.moving place)) right other) :
    Moves place (Expr.relabel (.moving place)) (operationOf right lhs)
      (operationOf other (lhs.relabel (.moving place))) := by
  refine moves_current.bind fun token => ?_
  rw [Token.kind_move]
  cases token.kind.operator? with
  | none => exact moves_unexpected
  | some operator =>
      refine moves_advance.bind fun _ => operand.bind fun rhs => ?_
      rw [Expr.span_relabel, Expr.span_relabel]
      exact moves_pure (Expr.operation operator lhs rhs ⟨lhs.span.start, rhs.span.stop⟩ none)

theorem moves_operandOf (grammar : Grammar) {inner other : Read Expr}
    (inside : Moves place (Expr.relabel (.moving place)) inner other) :
    Moves place (Expr.relabel (.moving place)) (operandOf grammar inner)
      (operandOf grammar other) := by
  refine moves_current.bind fun token => ?_
  rw [Token.kind_move]
  cases grammar.operand? token.kind with
  | none => exact moves_unexpected
  | some form =>
      cases form with
      | primary => exact moves_primary
      | grouping => exact moves_groupingOf inside

-- The bound is moved with the tokens, although only its length counts.
theorem moves_exprWithin (grammar : Grammar) (bound : List Token) :
    (∀ power, Moves place (Expr.relabel (.moving place)) (exprWithin grammar bound power)
      (exprWithin grammar (bound.map (Token.move place)) power)) ∧
    ∀ power left, Moves place (Expr.relabel (.moving place)) (extendWithin grammar bound power left)
      (extendWithin grammar (bound.map (Token.move place)) power
        (left.relabel (.moving place))) := by
  induction bound with
  | nil => exact ⟨fun _ => moves_unexpected, fun _ _ => moves_unexpected⟩
  | cons token bound ih =>
      obtain ⟨whole, extended⟩ := ih
      constructor
      · intro power
        exact (moves_operandOf grammar (whole .lowest)).bind (extended power)
      · intro power left
        refine moves_current.bind fun token => ?_
        have joined := (moves_operationOf left (whole (grammar.power token.kind))).bind
          (extended power)
        exact .ite Iff.rfl (moves_pure left) (.ite Iff.rfl joined moves_unexpected)

theorem moves_expr (grammar : Grammar) (power : Power) :
    Moves place (Expr.relabel (.moving place)) (expr grammar power) (expr grammar power) :=
  fun cursor => (moves_exprWithin grammar cursor.left).1 power cursor

theorem moves_selector : Moves place id selector selector := by
  refine moves_current.bind fun token => ?_
  rw [Token.selector_move]
  cases token.selector with
  | error stop => exact moves_throw stop
  | ok selector => exact moves_advance.bind fun _ => moves_pure selector

theorem moves_assignment (grammar : Grammar) :
    Moves place (Assignment.relabel (.moving place)) (assignment grammar) (assignment grammar) := by
  refine (moves_expect .variableName).bind fun name => (moves_expect .colon).bind fun _ => ?_
  refine (moves_expr grammar .lowest).bind fun value => (moves_expect .semicolon).bind fun _ => ?_
  refine moves_get.bind fun cursor => ?_
  have span := cursor.spanFrom_move place name.span.start
  exact span ▸ moves_pure (Assignment.mk name.text value (cursor.spanFrom name.span.start))

theorem moves_declaration (grammar : Grammar) :
    Moves place (Declaration.relabel (.moving place)) (declaration grammar)
      (declaration grammar) := by
  refine (moves_expect .identifier).bind fun name => ?_
  rw [Token.text_move]
  cases Property.ofName? name.text with
  | none => exact moves_reject (.unknownProperty name.text) name.span.start
  | some property =>
      refine (moves_expect .colon).bind fun _ => ?_
      refine (moves_expr grammar .lowest).bind fun value => ?_
      refine (moves_expect .semicolon).bind fun _ => moves_get.bind fun cursor => ?_
      have span := cursor.spanFrom_move place name.span.start
      exact span ▸ moves_pure
        (Declaration.mk property value (cursor.spanFrom name.span.start) none)

theorem moves_selectorsWithin (bound : List Token) :
    Moves place id (selectorsWithin bound) (selectorsWithin (bound.map (Token.move place))) := by
  induction bound with
  | nil => exact moves_unexpected
  | cons token bound ih =>
      refine moves_selector.bind fun first => moves_current.bind fun next => ?_
      refine .ite Iff.rfl ?_ (moves_pure [first])
      exact moves_advance.bind fun _ => ih.bind fun later => moves_pure (first :: later)

theorem moves_ruleOf {inner other : Read Body}
    (inside : Moves place (Body.relabel (.moving place)) inner other) :
    Moves place (Item.relabel (.moving place)) (ruleOf inner) (ruleOf other) := by
  have heads : Moves place id selectors selectors :=
    fun cursor => moves_selectorsWithin cursor.left cursor
  refine moves_get.bind fun start => heads.bind fun heads => ?_
  refine (moves_expect .openCurly).bind fun _ => inside.bind fun body => ?_
  refine (moves_expect .closeCurly).bind fun _ => moves_get.bind fun cursor => ?_
  have span := cursor.spanFrom_move place start.position
  exact span ▸ moves_pure (Item.rule heads body (cursor.spanFrom start.position))

theorem moves_bodyItemOf (grammar : Grammar) {inner other : Read Body}
    (inside : Moves place (Body.relabel (.moving place)) inner other) :
    Moves place (Item.relabel (.moving place)) (bodyItemOf grammar inner)
      (bodyItemOf grammar other) := by
  refine moves_get.bind fun cursor => ?_
  have kind : (cursor.move place).current.kind = cursor.current.kind := rfl
  rw [Cursor.following_move, kind]
  cases cursor.current.kind with
  | variableName =>
      exact (moves_assignment grammar).bind fun assigned => moves_pure (Item.assignment assigned)
  | identifier =>
      refine .ite Iff.rfl ?_ (moves_ruleOf inside)
      exact (moves_declaration grammar).bind fun declared => moves_pure (Item.declaration declared)
  | _ => exact moves_ruleOf inside

theorem moves_cons (item : Item) (later : Body) :
    Moves place (Body.relabel (.moving place)) (pure (.cons item later))
      (pure (.cons (item.relabel (.moving place)) (later.relabel (.moving place)))) := by
  rw [← Body.relabel_cons]
  exact moves_pure (Body.cons item later)

theorem moves_bodyWithin (grammar : Grammar) (bound : List Token) :
    Moves place (Body.relabel (.moving place)) (bodyWithin grammar bound)
      (bodyWithin grammar (bound.map (Token.move place))) := by
  induction bound with
  | nil => exact moves_unexpected
  | cons token bound ih =>
      refine moves_current.bind fun next => ?_
      rw [Token.kind_move]
      cases next.kind with
      | closeCurly | eof => exact moves_pure Body.empty
      | _ =>
          exact (moves_bodyItemOf grammar ih).bind fun item =>
            ih.bind fun later => moves_cons item later

theorem moves_sheetItem (grammar : Grammar) :
    Moves place (Item.relabel (.moving place)) (sheetItem grammar) (sheetItem grammar) := by
  refine moves_current.bind fun token => ?_
  have rules : Moves place (Item.relabel (.moving place)) (rule grammar) (rule grammar) :=
    moves_ruleOf fun cursor => moves_bodyWithin grammar cursor.left cursor
  rw [Token.kind_move]
  cases token.kind with
  | variableName =>
      exact (moves_assignment grammar).bind fun assigned => moves_pure (Item.assignment assigned)
  | _ => exact rules

theorem moves_sheetWithin (grammar : Grammar) (bound : List Token) :
    Moves place (Body.relabel (.moving place)) (sheetWithin grammar bound)
      (sheetWithin grammar (bound.map (Token.move place))) := by
  induction bound with
  | nil => exact moves_unexpected
  | cons token bound ih =>
      refine moves_get.bind fun cursor => .ite Iff.rfl (moves_pure Body.empty) ?_
      exact (moves_sheetItem grammar).bind fun item =>
        ih.bind fun later => moves_cons item later

theorem moves_sheetBody (grammar : Grammar) :
    Moves place (Body.relabel (.moving place)) (sheetBody grammar) (sheetBody grammar) :=
  fun cursor => moves_sheetWithin grammar cursor.left cursor

end Read

variable {place}

-- Without tokens, the missing `eof` is put at the start of the file, which has to stay in place.
theorem Cursor.ofTokens_move {file : String} (fixed : place ⟨0, file⟩ = ⟨0, file⟩)
    (tokens : List Token) :
    Cursor.ofTokens (tokens.map (Token.move place)) file =
      (Cursor.ofTokens tokens file).move place := by
  cases tokens with
  | nil => simp [ofTokens, move, Token.eof, Token.move, Span.relabel, Relabeling.moving, fixed]
  | cons first later =>
      have last : (later.map (Token.move place)).getLastD (first.move place) =
          (later.getLastD first).move place := by
        rw [List.getLastD_eq_getLast?, List.getLast?_map, List.getLastD_eq_getLast?]
        cases later.getLast? <;> rfl
      simp only [List.map_cons, ofTokens, last, Token.kind_move]
      split
      · rfl
      · simp [move, Token.eof, Token.move, Span.relabel, Relabeling.moving]

theorem Sheet.ofTokens_move {file : String} (fixed : place ⟨0, file⟩ = ⟨0, file⟩)
    (tokens : List Token) :
    Sheet.ofTokens (tokens.map (Token.move place)) file =
      relabeled (Stop.map (Diagnostic.relabel (.moving place))) (Sheet.relabel (.moving place))
        (Sheet.ofTokens tokens file) := by
  rw [ofTokens, ofTokens, Cursor.ofTokens_move fixed, Read.moves_sheetBody]
  cases Read.sheetBody .language (Cursor.ofTokens tokens file) with
  | error stop after => rfl
  | ok body after =>
      have span : Span.relabel (.moving place) ⟨⟨0, file⟩, after.position⟩ =
          ⟨⟨0, file⟩, (after.move place).position⟩ :=
        congrArg (Span.mk · _) fixed
      simp only [relabeled, relabel, span]

end Moved

/-! ### Sources with the same words -/

def Token.word (token : Token) : TokenKind × String := (token.kind, token.text)

theorem Token.map_move_eq {tokens others : List Token} (same : tokens.map word = others.map word)
    (position : Position) :
    tokens.map (Token.move fun _ => position) = others.map (Token.move fun _ => position) := by
  have stands (tokens : List Token) : tokens.map (Token.move fun _ => position) =
      (tokens.map word).map fun word => ⟨word.1, word.2, ⟨position, position⟩⟩ := by
    rw [List.map_map]
    rfl
  rw [stands, stands, same]

/-- With all positions moved to one place, sources with the same words compile alike. -/
theorem compile_of_words {source other file : String} {tokens others : List Token}
    (here : Token.ofSource source file = .ok tokens)
    (there : Token.ofSource other file = .ok others)
    (same : tokens.map Token.word = others.map Token.word) (indent : Nat) :
    let report := Stop.map (List.map (Diagnostic.relabel (.moving fun _ => ⟨0, file⟩)))
    relabeled report id (compile source file indent) =
      relabeled report id (compile other file indent) := by
  intro report
  -- Once all tokens stand at one place, the words are all that is left of them.
  have stages (source : String) {tokens : List Token}
      (split : Token.ofSource source file = .ok tokens) :
      relabeled report id (compile source file indent) =
        Compiled.ofStage (Sheet.ofTokens (tokens.map (Token.move fun _ => ⟨0, file⟩)) file) >>=
          Sheet.compiled indent := by
    have read : Sheet.ofSource source file = Sheet.ofTokens tokens file := by
      rw [Sheet.ofSource, split]
    rw [compile_eq, read, Sheet.ofTokens_move rfl, Compiled.ofStage_relabeled]
    symm
    apply relabeled_bind
    exact Sheet.compiled_relabel (Relabeling.faithful_moving _) indent
  rw [stages source here, stages other there, Token.map_move_eq same]

end TypedStyle
