import TypedStyle.Proofs.SheetGrammar

/-!
Reading stylesheets is exact: whatever derives from the grammar is read, and is read as the tree
that it derives. By induction on the derivation, each read is shown to pass the tokens of its part
and no others.
-/

namespace TypedStyle

open Grammar (language)

namespace Read

theorem yields_selector {token : Token} {selector : Selector} (selects : Selects token selector)
    (signed : token.Signed) {cursor : Cursor} (closed : cursor.Closed) {rest : List Token}
    (left : cursor.left = token :: rest) :
    Yields Read.selector cursor [token] (· = selector) := by
  have inside := selects.within.2
  have read := selects.selector_eq signed
  apply yields_current_bind
  rw [Cursor.current_eq_of_left left, read]
  apply (yields_advance closed left inside).bind
  intro _ after _ _
  exact yields_pure rfl

theorem yields_selectorsWithin {tokens : List Token} {selectors : List Selector}
    (derives : DerivesSelectors tokens selectors) (signed : ∀ token ∈ tokens, token.Signed)
    {cursor : Cursor} (closed : cursor.Closed) {next : Token} {rest : List Token}
    (left : cursor.left = tokens ++ next :: rest) (ends : next.kind ≠ .comma)
    {bound : List Token} (enough : tokens.length ≤ bound.length) :
    Yields (selectorsWithin bound) cursor tokens (· = selectors) := by
  induction derives generalizing cursor bound with
  | one selects =>
      cases bound with
      | nil => exact absurd enough (by simp)
      | cons _ bound =>
          apply (yields_selector selects (signed _ List.mem_cons_self) closed left).bind
          rintro _ after passes rfl
          have current := Cursor.current_eq_of_left (passes.left_eq left)
          apply yields_current_bind
          rw [current, if_neg ends]
          exact yields_pure rfl
  | @more token comma selector tokens selectors selects divides later ih =>
      cases bound with
      | nil => exact absurd enough (by simp)
      | cons _ bound =>
          apply (yields_selector selects (signed _ List.mem_cons_self) closed left).bind
          rintro _ after passes rfl
          have leftComma := passes.left_eq left
          have closedComma := closed.of_passes passes
          apply yields_current_bind
          rw [Cursor.current_eq_of_left leftComma, if_pos divides]
          apply (yields_advance closedComma leftComma (by simp [divides])).bind
          intro _ afterComma onward _
          have enough : tokens.length ≤ bound.length := by simp at enough; omega
          have rest := ih (fun token member => signed token (by simp [member]))
            (closedComma.of_passes onward) (onward.left_eq leftComma) enough
          rw [← List.append_nil tokens]
          apply rest.bind
          rintro _ _ _ rfl
          exact yields_pure rfl

theorem yields_value {Next : Type} {finish : Expr → Read Next} {colon semicolon : Token}
    {value rest : List Token} {tree : Expr} (divides : colon.kind = .colon)
    (expression : Derives .expression value tree) (ends : semicolon.kind = .semicolon)
    {cursor : Cursor} (closed : cursor.Closed)
    (left : cursor.left = colon :: (value ++ semicolon :: rest)) {good : Next → Prop}
    (last : ∀ expr after, Expr.bare expr = tree → Yields (finish expr) after [] good) :
    Yields (do
      let _ ← expect .colon
      let value ← expr language .lowest
      let _ ← expect .semicolon
      finish value) cursor (colon :: (value ++ [semicolon])) good := by
  rw [← divides, ← ends]
  apply (yields_expect closed left (by simp [divides])).bind
  rintro _ afterColon passes rfl
  have closedValue := closed.of_passes passes
  have leftValue := passes.left_eq left
  apply (expression.yields_expr closedValue leftValue (by rw [ends]; decide)).bind
  intro expr afterValue further same
  have closedEnd := closedValue.of_passes further
  have leftEnd := further.left_eq leftValue
  apply (yields_expect closedEnd leftEnd (by simp [ends])).bind
  rintro _ afterEnd _ rfl
  exact last expr afterEnd same

theorem yields_assignment {tokens rest : List Token} {tree : Assignment}
    (derives : DerivesAssignment tokens tree) {cursor : Cursor} (closed : cursor.Closed)
    (left : cursor.left = tokens ++ rest) :
    Yields (assignment language) cursor tokens (Assignment.bare · = tree) := by
  cases derives with
  | @intro name colon semicolon value tree named divides expression ends =>
      unfold assignment
      rw [← named]
      apply (yields_expect closed left (by simp [named])).bind
      rintro _ afterName passes rfl
      have leftColon := passes.left_eq left
      apply yields_value divides expression ends (closed.of_passes passes) (by simpa using leftColon)
      rintro expr after rfl
      apply yields_get_bind
      exact yields_pure rfl

theorem yields_declaration {tokens rest : List Token} {tree : Declaration}
    (derives : DerivesDeclaration tokens tree) {cursor : Cursor} (closed : cursor.Closed)
    (left : cursor.left = tokens ++ rest) :
    Yields (declaration language) cursor tokens (Declaration.bare · = tree) := by
  cases derives with
  | @intro name colon semicolon property value tree named known divides expression ends =>
      unfold declaration
      rw [← named]
      apply (yields_expect closed left (by simp [named])).bind
      rintro _ afterName passes rfl
      rw [Property.ofName?_eq_some.mpr known]
      have leftColon := passes.left_eq left
      apply yields_value divides expression ends (closed.of_passes passes) (by simpa using leftColon)
      rintro expr after rfl
      apply yields_get_bind
      exact yields_pure rfl

theorem yields_ruleOf {heads inside rest : List Token} {opening closing : Token}
    {selectors : List Selector} {inner : Body} (first : DerivesSelectors heads selectors)
    (signed : ∀ token ∈ heads, token.Signed) (opens : opening.kind = .openCurly)
    (closes : closing.kind = .closeCurly) {read : Read Body} {cursor : Cursor}
    (closed : cursor.Closed) (left : cursor.left = heads ++ opening :: (inside ++ closing :: rest))
    (body : ∀ start : Cursor, start.Closed → start.left = inside ++ closing :: rest →
      Yields read start inside (Body.bare · = inner)) :
    Yields (ruleOf read) cursor (heads ++ opening :: (inside ++ [closing]))
      (Item.bare · = .rule selectors inner .null) := by
  unfold ruleOf
  apply yields_get_bind
  have enough : heads.length ≤ cursor.left.length := by simp [left]
  apply (yields_selectorsWithin first signed closed left (by simp [opens]) enough).bind
  rintro _ afterHeads passes rfl
  have closedOpen := closed.of_passes passes
  have leftOpen := passes.left_eq left
  rw [← opens, ← closes]
  apply (yields_expect closedOpen leftOpen (by simp [opens])).bind
  intro _ afterOpen onward _
  have closedInner := closedOpen.of_passes onward
  have leftInner := onward.left_eq leftOpen
  apply (body afterOpen closedInner leftInner).bind
  rintro inner afterInner further rfl
  have closedClose := closedInner.of_passes further
  have leftClose := further.left_eq leftInner
  apply (yields_expect closedClose leftClose (by simp [closes])).bind
  intro _ afterClose _ _
  apply yields_get_bind
  exact yields_pure rfl

end Read

/-! The reads of the two levels side by side. -/

namespace Level

open Read

def inner (bound : List Token) : Level → Read Body
  | .sheet => body language
  | .rule => bodyWithin language bound

def item (bound : List Token) : Level → Read Item
  | .sheet => sheetItem language
  | .rule => bodyItemOf language (bodyWithin language bound)

def items (bound : List Token) : Level → Read Body
  | .sheet => sheetWithin language bound
  | .rule => bodyWithin language bound

def Ends : Level → TokenKind → Prop
  | .sheet, kind => kind = .eof
  | .rule, kind => kind = .closeCurly ∨ kind = .eof

variable {level : Level} {bound : List Token} {cursor : Cursor}

theorem yields_items_nil (ends : level.Ends cursor.current.kind) (positive : 0 < bound.length) :
    Yields (level.items bound) cursor [] (Body.bare · = .empty) := by
  cases bound with
  | nil => cases positive
  | cons _ bound =>
      cases level with
      | sheet =>
          apply yields_get_bind
          have atEnd : cursor.atEnd = true := beq_iff_eq.mpr ends
          rw [if_pos atEnd]
          exact yields_pure rfl
      | rule =>
          apply yields_current_bind
          rcases ends with closes | ends
          · rw [closes]
            exact yields_pure rfl
          · rw [ends]
            exact yields_pure rfl

theorem yields_items_cons {tokens more : List Token} (item : Item) {later : Body}
    (within : cursor.current.kind ≠ .closeCurly ∧ cursor.current.kind ≠ .eof)
    (positive : 0 < bound.length)
    (here : Yields (level.item bound.tail) cursor tokens (Item.bare · = item))
    (there : ∀ after, cursor.Passes tokens after →
      Yields (level.items bound.tail) after more (Body.bare · = later)) :
    Yields (level.items bound) cursor (tokens ++ more) (Body.bare · = Body.cons item later) := by
  have steps : Yields (do
      let item ← level.item bound.tail
      return Body.cons item (← level.items bound.tail)) cursor (tokens ++ (more ++ []))
      (Body.bare · = Body.cons item later) := by
    apply here.bind
    rintro item after passes rfl
    apply (there after passes).bind
    rintro later _ _ rfl
    exact yields_pure (Body.bare_cons item later)
  rw [List.append_nil] at steps
  cases bound with
  | nil => cases positive
  | cons _ bound =>
      cases level with
      | sheet =>
          apply yields_get_bind
          have inside : ¬ cursor.atEnd = true := mt beq_iff_eq.mp within.2
          rw [if_neg inside]
          exact steps
      | rule =>
          apply yields_current_bind
          split
          · rename_i closes
            exact absurd closes within.1
          · rename_i ends
            exact absurd ends within.2
          · exact steps

theorem assignment_starts {tokens rest : List Token} {tree : Assignment}
    (derives : DerivesAssignment tokens tree) (left : cursor.left = tokens ++ rest) :
    0 < tokens.length ∧ cursor.current.kind = .variableName := by
  cases derives with
  | intro named _ _ _ =>
      rw [Cursor.current_eq_of_left left]
      exact ⟨Nat.succ_pos _, named⟩

theorem declaration_starts {tokens rest : List Token} {tree : Declaration}
    (derives : DerivesDeclaration tokens tree) (left : cursor.left = tokens ++ rest) :
    0 < tokens.length ∧ cursor.current.kind = .identifier ∧ cursor.following = .colon := by
  cases derives with
  | intro named _ divides _ _ =>
      obtain ⟨current, ahead⟩ := List.cons.inj left
      exact ⟨Nat.succ_pos _, current ▸ named, by simp [Cursor.following, ahead, divides]⟩

theorem yields_item_assignment {tokens rest : List Token} {tree : Assignment}
    (derives : DerivesAssignment tokens tree) (closed : cursor.Closed)
    (left : cursor.left = tokens ++ rest) :
    Yields (level.item bound) cursor tokens (Item.bare · = .assignment tree) := by
  have named := (assignment_starts derives left).2
  have steps : Yields (do return Item.assignment (← assignment language)) cursor (tokens ++ [])
      (Item.bare · = .assignment tree) := by
    apply (yields_assignment derives closed left).bind
    rintro assigned _ _ rfl
    exact yields_pure rfl
  rw [List.append_nil] at steps
  cases level with
  | sheet =>
      apply yields_current_bind
      rw [named]
      exact steps
  | rule =>
      apply yields_get_bind
      rw [named]
      exact steps

theorem yields_item_declaration {tokens rest : List Token} {tree : Declaration}
    (derives : DerivesDeclaration tokens tree) (closed : cursor.Closed)
    (left : cursor.left = tokens ++ rest) :
    Yields (Level.rule.item bound) cursor tokens (Item.bare · = .declaration tree) := by
  obtain ⟨_, named, colon⟩ := declaration_starts derives left
  have steps : Yields (do return Item.declaration (← declaration language)) cursor (tokens ++ [])
      (Item.bare · = .declaration tree) := by
    apply (yields_declaration derives closed left).bind
    rintro declared _ _ rfl
    exact yields_pure rfl
  rw [List.append_nil] at steps
  apply yields_get_bind
  rw [named]
  dsimp only
  rw [if_pos colon]
  exact steps

theorem rule_starts {heads rest : List Token} {opening : Token} {selectors : List Selector}
    (first : DerivesSelectors heads selectors) (opens : opening.kind = .openCurly)
    (left : cursor.left = heads ++ opening :: rest) :
    (∃ selector, Selects cursor.current selector) ∧ cursor.following ≠ .colon := by
  cases first with
  | one selects =>
      obtain ⟨current, ahead⟩ := List.cons.inj left
      exact ⟨⟨_, current ▸ selects⟩, by simp [Cursor.following, ahead, opens]⟩
  | more selects divides later =>
      obtain ⟨current, ahead⟩ := List.cons.inj left
      exact ⟨⟨_, current ▸ selects⟩, by simp [Cursor.following, ahead, divides]⟩

-- The second token of a rule is no colon, so that no rule is taken for a declaration.
theorem yields_item_rule {selector : Selector} (selects : Selects cursor.current selector)
    (apart : cursor.following ≠ .colon) {tokens : List Token} {good : Item → Prop}
    (steps : Yields (ruleOf (level.inner bound)) cursor tokens good) :
    Yields (level.item bound) cursor tokens good := by
  cases level with
  | sheet =>
      apply yields_current_bind
      cases selects with
      | tag kind | byClass kind _ | byId kind _ =>
          rw [kind]
          exact steps
  | rule =>
      apply yields_get_bind
      cases selects with
      | tag kind =>
          rw [kind]
          dsimp only
          rw [if_neg apart]
          exact steps
      | byClass kind _ | byId kind _ =>
          rw [kind]
          exact steps

theorem yields_inner {tokens : List Token} {good : Body → Prop}
    (short : tokens.length < cursor.left.length) (enough : tokens.length < bound.length)
    (items : ∀ bound, tokens.length < bound.length →
      Yields (Level.rule.items bound) cursor tokens good) :
    Yields (level.inner bound) cursor tokens good := by
  cases level with
  | sheet => exact items cursor.left short
  | rule => exact items bound enough

end Level

namespace DerivesBody

open Read

-- By induction on the derivation. The bound shrinks by one for each item, which has a token.
theorem yields_items {level : Level} {tokens : List Token} {tree : Body}
    (derives : DerivesBody level tokens tree) (signed : ∀ token ∈ tokens, token.Signed)
    {cursor : Cursor} (closed : cursor.Closed) {next : Token} {rest : List Token}
    (left : cursor.left = tokens ++ next :: rest) (ends : level.Ends next.kind)
    {bound : List Token} (enough : tokens.length < bound.length) :
    Yields (level.items bound) cursor tokens (Body.bare · = tree) := by
  induction derives generalizing cursor bound next rest with
  | empty =>
      rw [← Cursor.current_eq_of_left left] at ends
      exact Level.yields_items_nil ends enough
  | @declaration tokens more declared tree first later ih =>
      rw [List.append_assoc] at left
      rw [List.length_append] at enough
      have starts := Level.declaration_starts first left
      apply Level.yields_items_cons (.declaration declared) (by simp [starts]) (by omega)
      · exact Level.yields_item_declaration first closed left
      · intro after passes
        apply ih (by grind) (closed.of_passes passes) (passes.left_eq left) ends
        rw [List.length_tail]
        omega
  | @assignment level tokens more assigned tree first later ih =>
      rw [List.append_assoc] at left
      rw [List.length_append] at enough
      have starts := Level.assignment_starts first left
      apply Level.yields_items_cons (.assignment assigned) (by simp [starts]) (by omega)
      · exact Level.yields_item_assignment first closed left
      · intro after passes
        apply ih (by grind) (closed.of_passes passes) (passes.left_eq left) ends
        rw [List.length_tail]
        omega
  | @rule level heads inside more opening closing selectors inner tree first opens body closes later
      ihBody ihLater =>
      have split : heads ++ opening :: (inside ++ closing :: more) =
          (heads ++ opening :: (inside ++ [closing])) ++ more := by simp
      have leftInner :
          cursor.left = heads ++ opening :: (inside ++ closing :: (more ++ next :: rest)) := by
        simpa using left
      have enoughInner : inside.length < bound.tail.length := by
        simp at enough ⊢
        omega
      have enoughLater : more.length < bound.tail.length := by
        simp at enough ⊢
        omega
      obtain ⟨⟨selector, selects⟩, apart⟩ := Level.rule_starts first opens leftInner
      rw [split]
      apply Level.yields_items_cons (.rule selectors inner .null) selects.within (by omega)
      · apply Level.yields_item_rule selects apart
        apply yields_ruleOf first (by grind) opens closes closed leftInner
        intro start closedStart leftStart
        apply Level.yields_inner (by simp [leftStart]) enoughInner
        intro bound enough
        exact ihBody (by grind) closedStart leftStart (Or.inl closes) enough
      · intro after passes
        rw [split, List.append_assoc] at left
        exact ihLater (by grind) (closed.of_passes passes) (passes.left_eq left) ends enoughLater

end DerivesBody

namespace Sheet

variable {tokens : List Token} {last : Token}

theorem eq_of_first_eof (inside : ∀ token ∈ tokens, token.kind ≠ .eof) {front rest : List Token}
    {next : Token} (split : tokens ++ [last] = front ++ next :: rest) (ends : next.kind = .eof) :
    front = tokens := by
  rcases List.append_eq_append_iff.mp split with ⟨more, rfl, tail⟩ | ⟨more, rfl, tail⟩
  · cases more with
    | nil => exact List.append_nil tokens
    | cons _ more => simp at tail
  · cases more with
    | nil => exact (List.append_nil front).symm
    | cons first more =>
        cases tail
        exact absurd ends (inside next (by simp))

theorem readFrom_of_ofTokens {file : String} (ends : last.kind = .eof)
    (inside : ∀ token ∈ tokens, token.kind ≠ .eof) (signed : ∀ token ∈ tokens, token.Signed)
    {sheet : Sheet} (read : Sheet.ofTokens (tokens ++ [last]) file = .ok sheet) :
    sheet.body.ReadFrom .sheet tokens ∧ sheet.span = ⟨⟨0, file⟩, last.span.start⟩ := by
  rcases ofTokens_cases file ends signed with
    ⟨other, front, next, rest, same, split, atEnd, whole, span⟩ | ⟨_, rejected, _⟩
  · cases read.symm.trans same
    obtain rfl := eq_of_first_eof inside split atEnd
    cases List.append_cancel_left split
    exact ⟨whole, span⟩
  · cases read.symm.trans rejected

theorem ofTokens_of_derives (file : String) (ends : last.kind = .eof)
    (signed : ∀ token ∈ tokens, token.Signed) {tree : Body} (derives : DerivesBody .sheet tokens tree) :
    ∃ sheet, Sheet.ofTokens (tokens ++ [last]) file = .ok sheet ∧ sheet.body.bare = tree := by
  have ready := Cursor.ready_ofTokens file ends signed
  have left := Cursor.left_ofTokens tokens file ends
  have enough : tokens.length < (Cursor.ofTokens (tokens ++ [last]) file).left.length := by
    simp [left]
  obtain ⟨body, after, read, _, same⟩ := derives.yields_items signed ready.closed left ends enough
  refine ⟨⟨body, ⟨⟨0, file⟩, after.position⟩⟩, ?_, same⟩
  have read : Read.sheetBody language (Cursor.ofTokens (tokens ++ [last]) file) = .ok body after :=
    read
  simp only [Sheet.ofTokens, read]

/-- Reading accepts exactly the token lists that derive from the grammar, and builds the one tree
that they derive. -/
theorem ofTokens_exact (tokens : List Token) (last : Token) (file : String)
    (ends : last.kind = .eof) (inside : ∀ token ∈ tokens, token.kind ≠ .eof)
    (signed : ∀ token ∈ tokens, token.Signed) :
    ((∃ sheet, Sheet.ofTokens (tokens ++ [last]) file = .ok sheet) ↔
      ∃ tree, DerivesBody .sheet tokens tree) ∧
    ∀ sheet, Sheet.ofTokens (tokens ++ [last]) file = .ok sheet →
      ∀ tree, DerivesBody .sheet tokens tree ↔ tree = sheet.body.bare := by
  constructor
  · constructor
    · rintro ⟨sheet, read⟩
      exact ⟨_, (readFrom_of_ofTokens ends inside signed read).1.derives⟩
    · rintro ⟨tree, derives⟩
      obtain ⟨sheet, read, _⟩ := ofTokens_of_derives file ends signed derives
      exact ⟨sheet, read⟩
  · intro sheet read tree
    constructor
    · intro derives
      obtain ⟨other, again, same⟩ := ofTokens_of_derives file ends signed derives
      cases read.symm.trans again
      exact same.symm
    · rintro rfl
      exact (readFrom_of_ofTokens ends inside signed read).1.derives

private def word (kind : TokenKind) (text : String) : Token := ⟨kind, text, .null⟩

-- `.p { width: @a - 2 * 3; }`
def differenceTokens : List Token :=
  [word .classSelector ".p", word .openCurly "\x7b", word .identifier "width", word .colon ":",
    word .variableName "@a", word .dash "-", word .scalar "2", word .star "*", word .scalar "3",
    word .semicolon ";", word .closeCurly "\x7d"]

def differenceTree : Body :=
  .rule [.byClass "p"]
    (.declaration ⟨.width, .operation .subtract (.reference "@a" .null none)
      (.operation .multiply (.literal (.scalar 2) .null) (.literal (.scalar 3) .null) .null none)
      .null none, .null, none⟩ .empty) .null .empty

theorem derives_differenceTree : DerivesBody .sheet differenceTokens differenceTree := by
  have two : WritesMagnitude "2" "" 2 :=
    ⟨['2'], .unsigned ⟨by simp, List.forall_mem_singleton.mpr rfl⟩, Or.inl rfl⟩
  have three : WritesMagnitude "3" "" 3 :=
    ⟨['3'], .unsigned ⟨by simp, List.forall_mem_singleton.mpr rfl⟩, Or.inl rfl⟩
  have name : Derives .expression [word .variableName "@a"] (.reference "@a" .null none) :=
    .term (.factor (.operand (.variableName rfl)))
  have product : Derives .term [word .scalar "2", word .star "*", word .scalar "3"]
      (.operation .multiply (.literal (.scalar 2) .null) (.literal (.scalar 3) .null) .null none) :=
    .product (.factor (.operand (.scalar rfl two))) rfl (.operand (.scalar rfl three))
  have minus : JoinsTerms (word .dash "-") .subtract := .dash rfl
  have known : "width" = Property.width.name := rfl
  have declared : DerivesDeclaration (word .identifier "width" :: word .colon ":" ::
      ([word .variableName "@a", word .dash "-", word .scalar "2", word .star "*",
        word .scalar "3"] ++ [word .semicolon ";"])) _ :=
    .intro rfl known rfl (.sum name minus product) rfl
  have selects : Selects (word .classSelector ".p") (.byClass "p") := .byClass rfl rfl
  exact .rule (.one selects) rfl (.declaration declared .empty) rfl .empty

theorem ofTokens_differenceTokens :
    (∀ token ∈ differenceTokens, token.kind ≠ .eof) ∧
    (∀ token ∈ differenceTokens, token.Signed) ∧
    ∃ sheet, Sheet.ofTokens (differenceTokens ++ [.eof .null]) "" = .ok sheet ∧
      sheet.body.bare = differenceTree := by
  have inside : ∀ token ∈ differenceTokens, token.kind ≠ .eof := by decide
  have signed : ∀ token ∈ differenceTokens, token.Signed := by decide
  have derives := derives_differenceTree
  obtain ⟨accepts, unique⟩ := ofTokens_exact differenceTokens (.eof .null) "" rfl inside signed
  obtain ⟨sheet, read⟩ := accepts.mpr ⟨differenceTree, derives⟩
  exact ⟨inside, signed, sheet, read, ((unique sheet read differenceTree).mp derives).symm⟩

end Sheet

end TypedStyle
