import TypedStyle.Proofs.CssWords

/-!
Expressions in writing. The text of an expression has blanks around its operators, and parentheses
either around every operation or only where operators would otherwise group in another way. Either
text is read back as the expression it is the text of.
-/

namespace TypedStyle

open Text

inductive Standing where
  | alone
  | leftOf (operator : Operator)
  | rightOf (operator : Operator)

inductive Parens where
  | all
  | needed

def Operator.rank : Operator → Nat
  | .add | .subtract => 1
  | .multiply => 2

/-- A looser operation needs parentheses as an operand. As operators of one rank group to the left,
so does one of the same rank on the right. -/
def Parens.enclose (parens : Parens) (operator : Operator) (standing : Standing) : Bool :=
  match parens, standing with
  | .all, _ => true
  | .needed, .alone => false
  | .needed, .leftOf around => operator.rank < around.rank
  | .needed, .rightOf around => operator.rank ≤ around.rank

def Expr.text (parens : Parens) (standing : Standing) : Expr → String
  | .literal value _ => value.text
  | .reference name _ _ => name
  | .operation operator lhs rhs _ _ =>
      let joined := lhs.text parens (.leftOf operator) ++ " " ++ operator.symbol ++ " " ++
        rhs.text parens (.rightOf operator)
      if parens.enclose operator standing then "(" ++ joined ++ ")" else joined

/-- Its numbers are natural, its colors and variables can be written, and nothing is attached. -/
def Expr.Writable : Expr → Prop
  | .literal value _ => value.Written ∧ value.NonNegative
  | .reference name _ diagnostic =>
      name.toList ∈ TokenKind.variableName.pattern ∧ diagnostic = none
  | .operation _ lhs rhs _ diagnostic => lhs.Writable ∧ rhs.Writable ∧ diagnostic = none

-- No token goes on with an opening parenthesis, whatever follows it.
theorem Lexeme.Writes.openParen_cons {text : List Char} {said : List (TokenKind × String)}
    (writes : Writes text said) : Writes ('(' :: text) ((.openParen, "(") :: said) := by
  intro back rest stops spells
  have found : first? ('(' :: (text ++ back)) = some (⟨.token .openParen, ['(']⟩, text ++ back) :=
    rfl
  exact (writes back rest stops spells).found found

/-- A tighter layer belongs to the looser ones. -/
theorem Derives.mono {layer other : Layer} (looser : other.follow ≤ layer.follow)
    {tokens : List Token} {tree : Expr} (derives : Derives layer tokens tree) :
    Derives other tokens tree := by
  cases layer with
  | factor =>
      cases other with
      | factor => exact derives
      | term => exact .factor derives
      | expression => exact .term (.factor derives)
  | term =>
      cases other with
      | factor => exact absurd looser (by decide)
      | term => exact derives
      | expression => exact .term derives
  | expression =>
      cases other with
      | expression => exact derives
      | factor | term => exact absurd looser (by decide)

def Phrase (layer : Layer) (text : List Char) (tree : Expr) : Prop :=
  ∃ said, Lexeme.Writes text said ∧
    ∀ tokens : List Token, tokens.map Token.word = said → Derives layer tokens tree

namespace Phrase

variable {text left right : List Char} {tree lhs rhs : Expr}

theorem operand {kind : TokenKind} {word : String} (written : word.toList ∈ kind.pattern)
    (operand : ∀ token : Token, token.word = (kind, word) → Operand token tree) :
    Phrase .factor word.toList tree := by
  refine ⟨_, Lexeme.writes_token written, ?_⟩
  intro tokens said
  obtain ⟨token, _, rfl, here, said⟩ := List.map_eq_cons_iff.mp said
  cases List.map_eq_nil_iff.mp said
  exact .operand (operand token here)

theorem mono {layer other : Layer} (looser : other.follow ≤ layer.follow)
    (phrase : Phrase layer text tree) : Phrase other text tree := by
  obtain ⟨said, writes, derives⟩ := phrase
  exact ⟨said, writes, fun tokens same => (derives tokens same).mono looser⟩

theorem group (phrase : Phrase .expression text tree) :
    Phrase .factor ('(' :: (text ++ [')'])) tree := by
  obtain ⟨said, writes, derives⟩ := phrase
  have closing : Lexeme.Writes ")".toList [(.closeParen, ")")] := Lexeme.writes_token rfl
  have ended := writes.append closing (by rintro _ ⟨⟩; decide)
  refine ⟨_, ended.openParen_cons, ?_⟩
  intro tokens same
  obtain ⟨opening, _, rfl, opens, same⟩ := List.map_eq_cons_iff.mp same
  obtain ⟨inner, _, rfl, inside, same⟩ := List.map_eq_append_iff.mp same
  obtain ⟨closing, _, rfl, closes, same⟩ := List.map_eq_cons_iff.mp same
  cases List.map_eq_nil_iff.mp same
  exact .group (Prod.mk.inj opens).1 (derives inner inside) (Prod.mk.inj closes).1

end Phrase

def Standing.layer : Standing → Layer
  | .alone => .expression
  | .leftOf .multiply => .term
  | .leftOf _ => .expression
  | .rightOf .multiply => .factor
  | .rightOf _ => .term

def Operator.layer : Operator → Layer
  | .multiply => .term
  | _ => .expression

theorem Operator.follow_layer (operator : Operator) : operator.layer.follow = operator.rank := by
  cases operator <;> rfl

theorem Standing.follow_leftOf (around : Operator) :
    (leftOf around).layer.follow = around.rank := by
  cases around <;> rfl

theorem Standing.follow_rightOf (around : Operator) :
    (rightOf around).layer.follow = around.rank + 1 := by
  cases around <;> rfl

theorem Standing.follow_le (standing : Standing) :
    standing.layer.follow ≤ Layer.factor.follow := by
  cases standing.layer <;> decide

/-- An operation without parentheses fits where it stands. -/
theorem Parens.fits {parens : Parens} {operator : Operator} {standing : Standing}
    (bare : parens.enclose operator standing = false) :
    standing.layer.follow ≤ operator.layer.follow := by
  cases parens with
  | all => cases bare
  | needed =>
      rw [Operator.follow_layer]
      cases standing with
      | alone => cases operator <;> decide
      | leftOf around =>
          rw [Standing.follow_leftOf]
          exact Nat.le_of_not_lt (of_decide_eq_false bare)
      | rightOf around =>
          rw [Standing.follow_rightOf]
          exact Nat.lt_of_not_le (of_decide_eq_false bare)

def Operator.kind : Operator → TokenKind
  | .add => .plus
  | .subtract => .dash
  | .multiply => .star

theorem Operator.derives {operator : Operator} {left right : List Token} {sign : Token}
    {lhs rhs : Expr} (first : Derives (Standing.leftOf operator).layer left lhs)
    (kind : sign.kind = operator.kind)
    (second : Derives (Standing.rightOf operator).layer right rhs) :
    Derives operator.layer (left ++ sign :: right) (.operation operator lhs rhs .null none) := by
  cases operator with
  | add => exact .sum first (.plus kind) second
  | subtract => exact .sum first (.dash kind) second
  | multiply => exact .product first kind second

theorem Operator.symbol_mem_pattern (operator : Operator) :
    operator.symbol.toList ∈ operator.kind.pattern := by
  cases operator <;> rfl

theorem Phrase.join {operator : Operator} {left right : List Char} {lhs rhs : Expr}
    (first : Phrase (Standing.leftOf operator).layer left lhs)
    (second : Phrase (Standing.rightOf operator).layer right rhs) :
    Phrase operator.layer (left ++ ' ' :: (operator.symbol.toList ++ ' ' :: right))
      (.operation operator lhs rhs .null none) := by
  have blank : isBlank ' ' = true := by decide
  have apart (rest : List Char) : Cut.Stops Form.goesOn (' ' :: rest) := by
    rintro _ ⟨⟩
    decide
  obtain ⟨_, writesLeft, derivesLeft⟩ := first
  obtain ⟨_, writesRight, derivesRight⟩ := second
  have sign := Lexeme.writes_token operator.symbol_mem_pattern
  have behind := (sign.append (writesRight.blank_cons blank) (apart _)).blank_cons blank
  refine ⟨_, writesLeft.append behind (apart _), ?_⟩
  intro tokens same
  obtain ⟨left, _, rfl, sameLeft, same⟩ := List.map_eq_append_iff.mp same
  obtain ⟨sign, right, rfl, joins, sameRight⟩ := List.map_eq_cons_iff.mp same
  exact operator.derives (derivesLeft left sameLeft) (Prod.mk.inj joins).1
    (derivesRight right sameRight)

theorem Expr.phrase_text {expr : Expr} (writable : expr.Writable) (parens : Parens)
    (standing : Standing) : Phrase standing.layer (expr.text parens standing).toList expr.bare := by
  induction expr generalizing standing with
  | literal value span =>
      have factor := Phrase.operand (value.text_mem_pattern writable.1 writable.2)
        fun token said => Literal.operand writable.1 writable.2 said
      exact factor.mono standing.follow_le
  | reference name span diagnostic =>
      obtain ⟨named, rfl⟩ := writable
      have factor : Phrase .factor name.toList (.reference name .null none) := by
        apply Phrase.operand named
        rintro token said
        obtain ⟨kind, rfl⟩ := Prod.mk.inj said
        exact .variableName kind
      exact factor.mono standing.follow_le
  | operation operator lhs rhs span diagnostic ihl ihr =>
      obtain ⟨left, right, rfl⟩ := writable
      have joined := (ihl left (.leftOf operator)).join (ihr right (.rightOf operator))
      rw [text]
      cases enclosed : parens.enclose operator standing with
      | false => simpa [bare] using joined.mono (Parens.fits enclosed)
      | true =>
          have loosest : Layer.expression.follow ≤ operator.layer.follow := by
            cases operator <;> decide
          simpa [bare] using (joined.mono loosest).group.mono standing.follow_le

theorem Phrase.assignment {text : List Char} {tree : Expr} (phrase : Phrase .expression text tree) :
    ∃ said, Lexeme.Writes ("@v: ".toList ++ (text ++ [';'])) said ∧
      ∀ tokens : List Token, tokens.map Token.word = said →
        DerivesAssignment tokens ⟨"@v", tree, .null⟩ := by
  obtain ⟨_, writes, derives⟩ := phrase
  have letter : ['v'] ∈ TokenKind.identifier.pattern :=
    mem_identifier_pattern (by decide) (by decide)
  have name : "@v".toList ∈ TokenKind.variableName.pattern :=
    Language.mem_mul.mpr ⟨['@'], rfl, ['v'], letter, rfl⟩
  have semicolon : Lexeme.Writes ";".toList [(.semicolon, ";")] := Lexeme.writes_token rfl
  have ended := writes.append semicolon (by rintro _ ⟨⟩; decide)
  have colon := ended.sign_cons .colon ":" ':' ' ' rfl rfl (by decide)
  refine ⟨_, (Lexeme.writes_token name).append colon (by rintro _ ⟨⟩; decide), ?_⟩
  intro tokens same
  obtain ⟨name, _, rfl, named, same⟩ := List.map_eq_cons_iff.mp same
  obtain ⟨colon, _, rfl, divides, same⟩ := List.map_eq_cons_iff.mp same
  obtain ⟨value, _, rfl, inside, same⟩ := List.map_eq_append_iff.mp same
  obtain ⟨semicolon, _, rfl, ends, same⟩ := List.map_eq_cons_iff.mp same
  cases List.map_eq_nil_iff.mp same
  obtain ⟨kind, spelled⟩ := Prod.mk.inj named
  rw [← spelled]
  exact .intro kind (Prod.mk.inj divides).1 (derives value inside) (Prod.mk.inj ends).1

theorem Body.eq_assignment_of_bare {body : Body} {name : String} {value : Expr}
    (bare : body.bare = .assignment ⟨name, value, .null⟩ .empty) :
    ∃ assigned, body = .assignment assigned .empty ∧ assigned.name = name ∧
      assigned.value.bare = value := by
  cases body with
  | empty | declaration | rule => cases bare
  | assignment assigned later =>
      obtain ⟨same, ended⟩ := Body.assignment.inj bare
      obtain ⟨rfl, rfl, _⟩ := Assignment.mk.inj same
      cases later with
      | empty => exact ⟨assigned, rfl, rfl, rfl⟩
      | declaration | assignment | rule => cases ended

/-- An expression that is written down, with all parentheses or only with those it needs, is read
back as it was, spans aside. -/
theorem Expr.read_text (expr : Expr) (writable : expr.Writable) (parens : Parens) (file : String) :
    ∃ tokens sheet assigned,
      Token.ofSource ("@v: " ++ expr.text parens .alone ++ ";") file = .ok tokens ∧
      Sheet.ofTokens tokens file = .ok sheet ∧ sheet.body = .assignment assigned .empty ∧
      assigned.name = "@v" ∧ assigned.value.bare = expr.bare := by
  obtain ⟨said, writes, derives⟩ := (expr.phrase_text writable parens .alone).assignment
  have spells : Lexeme.Spells ("@v: " ++ expr.text parens .alone ++ ";").toList said := by
    simpa using writes.spells
  obtain ⟨tokens, split, same⟩ := Token.ofSource_of_spells spells file
  obtain ⟨words, last, rfl, ends, fit, _⟩ := Token.ofSource_words split
  rw [List.map_append] at same
  have assignment := derives words (List.append_inj' same rfl).1
  have derivesBody :
      DerivesBody .sheet (words ++ []) (.assignment ⟨"@v", expr.bare, .null⟩ .empty) :=
    .assignment assignment .empty
  rw [List.append_nil] at derivesBody
  obtain ⟨sheet, read, bare⟩ := Sheet.ofTokens_of_derives file ends
    (fun word member => (fit word member).2) derivesBody
  obtain ⟨assigned, body, name, value⟩ := Body.eq_assignment_of_bare bare
  exact ⟨_, sheet, assigned, split, read, body, name, value⟩

def groupedDifference : Expr :=
  .operation .subtract
    (.operation .multiply
      (.operation .add (.literal (.pixel 1) .null) (.reference "@a" .null none) .null none)
      (.literal (.scalar 2) .null) .null none)
    (.operation .subtract
      (.literal (.percentage 0) .null) (.literal (.color "#Fff") .null) .null none)
    .null none

/-- A sum under a product, a product under a difference, and a difference on its right. -/
theorem groupedDifference_read :
    groupedDifference.text .all .alone = "(((1px + @a) * 2) - (0% - #Fff))" ∧
    groupedDifference.text .needed .alone = "(1px + @a) * 2 - (0% - #Fff)" ∧
    groupedDifference.Writable ∧ ∀ parens, ∃ tokens sheet assigned,
      Token.ofSource ("@v: " ++ groupedDifference.text parens .alone ++ ";") "a" = .ok tokens ∧
      Sheet.ofTokens tokens "a" = .ok sheet ∧ sheet.body = .assignment assigned .empty ∧
      assigned.name = "@v" ∧ assigned.value.bare = groupedDifference := by
  have number (value : Literal) (magnitude : Int32) (same : value.magnitude? = some magnitude)
      (natural : 0 ≤ magnitude.toInt) : value.NonNegative := by
    intro other found
    cases same.symm.trans found
    exact natural
  have name : "@a".toList ∈ TokenKind.variableName.pattern :=
    Language.mem_mul.mpr ⟨['@'], rfl, ['a'], mem_identifier_pattern (by decide) (by decide), rfl⟩
  have hex : Color.Hex "#Fff" := Color.isHex_iff.mp (by decide)
  have writable : groupedDifference.Writable :=
    ⟨⟨⟨⟨trivial, number _ 1 rfl (by decide)⟩, ⟨name, rfl⟩, rfl⟩,
      ⟨trivial, number _ 2 rfl (by decide)⟩, rfl⟩,
      ⟨⟨trivial, number _ 0 rfl (by decide)⟩, ⟨Or.inl hex, nofun⟩, rfl⟩, rfl⟩
  exact ⟨rfl, rfl, writable, fun parens => groupedDifference.read_text writable parens "a"⟩

end TypedStyle
