import TypedStyle.Proofs.Folding
import TypedStyle.Proofs.Reading

/-!
What single tokens write, said without reading them: numbers with a unit, colors, variables and
selectors. Spans play no part in it; a tree without its spans is `bare`.
-/

namespace TypedStyle

def Expr.bare : Expr → Expr
  | .literal value _ => .literal value .null
  | .reference name _ diagnostic => .reference name .null diagnostic
  | .operation operator lhs rhs _ diagnostic =>
      .operation operator lhs.bare rhs.bare .null diagnostic

theorem Expr.diagnostics_bare (expr : Expr) : expr.bare.diagnostics = expr.diagnostics := by
  induction expr with
  | literal value span => rfl
  | reference name span diagnostic => rfl
  | operation operator lhs rhs span diagnostic ihl ihr => simp only [bare, diagnostics, ihl, ihr]

namespace Text

def Decimal (digits : List Char) : Prop := digits ≠ [] ∧ ∀ digit ∈ digits, digit.isDigit = true

inductive Numeral : List Char → Int → Prop where
  | unsigned {digits : List Char} (decimal : Decimal digits) :
      Numeral digits (digitsValue digits)
  | plus {digits : List Char} (decimal : Decimal digits) :
      Numeral ('+' :: digits) (digitsValue digits)
  | minus {digits : List Char} (decimal : Decimal digits) :
      Numeral ('-' :: digits) (-(digitsValue digits : Int))

theorem natural?_eq_some {digits : List Char} {value : Nat} :
    natural? digits = some value ↔ Decimal digits ∧ digitsValue digits = value := by
  cases digits with
  | nil => simp [natural?, Decimal]
  | cons first rest => simp [natural?, Decimal]

theorem cast_natural?_eq_some {digits : List Char} {value : Int} :
    (do return ((← natural? digits) : Int)) = some value ↔
      Decimal digits ∧ (digitsValue digits : Int) = value := by
  constructor
  · intro read
    obtain ⟨_, found, same⟩ := Option.bind_eq_some_iff.mp read
    obtain ⟨decimal, rfl⟩ := natural?_eq_some.mp found
    exact ⟨decimal, Option.some.inj same⟩
  · rintro ⟨decimal, rfl⟩
    rw [natural?_eq_some.mpr ⟨decimal, rfl⟩]
    rfl

theorem integer?_eq_some {text : List Char} {value : Int} :
    integer? text = some value ↔ Numeral text value := by
  constructor
  · intro read
    unfold integer? at read
    split at read
    · obtain ⟨_, found, rfl⟩ := Option.map_eq_some_iff.mp read
      obtain ⟨decimal, rfl⟩ := cast_natural?_eq_some.mp found
      exact .minus decimal
    · obtain ⟨_, found, rfl⟩ := Option.map_eq_some_iff.mp read
      obtain ⟨decimal, rfl⟩ := cast_natural?_eq_some.mp found
      exact .plus decimal
    · obtain ⟨_, found, rfl⟩ := Option.map_eq_some_iff.mp read
      obtain ⟨decimal, rfl⟩ := cast_natural?_eq_some.mp found
      exact .unsigned decimal
  · intro numeral
    cases numeral with
    | minus decimal => rw [integer?, cast_natural?_eq_some.mpr ⟨decimal, rfl⟩, Option.map_some]
    | plus decimal => rw [integer?, cast_natural?_eq_some.mpr ⟨decimal, rfl⟩, Option.map_some]
    | unsigned decimal =>
        -- Neither sign is a digit, so the text starts with neither.
        unfold integer?
        split
        · exact absurd (decimal.2 '-' List.mem_cons_self) (by decide)
        · exact absurd (decimal.2 '+' List.mem_cons_self) (by decide)
        · rw [cast_natural?_eq_some.mpr ⟨decimal, rfl⟩, Option.map_some]

theorem signed32?_eq_some {text : List Char} {magnitude : Int32} :
    signed32? text = some magnitude ↔ Numeral text magnitude.toInt := by
  rw [← integer?_eq_some, signed32?]
  cases integer? text with
  | none => simp
  | some value =>
      have low := magnitude.le_toInt
      have high := magnitude.toInt_lt
      dsimp only
      constructor
      · intro read
        split at read
        · rename_i fits
          cases read
          rw [Int32.toInt_ofInt_of_le (by omega) (by omega)]
        · cases read
      · intro same
        cases same
        rw [if_pos ⟨low, by omega⟩, Int32.ofInt_toInt]

end Text

/-- The text is a numeral of the magnitude once `unit` is taken from its end, if it is there. -/
def WritesMagnitude (text unit : String) (magnitude : Int32) : Prop :=
  ∃ numeral, Text.Numeral numeral magnitude.toInt ∧
    (text.toList = numeral ++ unit.toList ∨
      ¬unit.toList <:+ text.toList ∧ text.toList = numeral)

theorem Token.magnitude_eq_ok {token : Token} {unit : String} {magnitude : Int32} :
    token.magnitude unit = .ok magnitude ↔ WritesMagnitude token.text unit magnitude := by
  have read : token.magnitude unit = .ok magnitude ↔
      Text.Numeral (if unit.toList <:+ token.text.toList then
        token.text.toList.take (token.text.toList.length - unit.toList.length)
        else token.text.toList) magnitude.toInt := by
    rw [← Text.signed32?_eq_some]
    unfold Token.magnitude
    dsimp only
    split <;> simp_all
  rw [read]
  unfold WritesMagnitude
  by_cases present : unit.toList <:+ token.text.toList
  · obtain ⟨front, split⟩ := present
    have digits : token.text.toList.take (token.text.toList.length - unit.toList.length) = front := by
      rw [← split, List.length_append, Nat.add_sub_cancel, List.take_left]
    rw [if_pos ⟨front, split⟩, digits]
    constructor
    · intro numeral
      exact ⟨front, numeral, Or.inl split.symm⟩
    · rintro ⟨numeral, written, same | ⟨absent, _⟩⟩
      · rw [← split] at same
        exact List.append_cancel_right same ▸ written
      · exact absurd ⟨front, split⟩ absent
  · rw [if_neg present]
    constructor
    · intro numeral
      exact ⟨_, numeral, Or.inr ⟨present, rfl⟩⟩
    · rintro ⟨numeral, written, same | ⟨_, rfl⟩⟩
      · exact absurd ⟨numeral, same.symm⟩ present
      · exact written

namespace Color

def Hex (text : String) : Prop :=
  ∃ digits, text.toList = '#' :: digits ∧ (digits.length = 3 ∨ digits.length = 6) ∧
    ∀ digit ∈ digits, isHexDigit digit = true

def Named (text : String) : Prop := ∃ hex, (text, hex) ∈ named

theorem isHex_iff {text : String} : isHex text = true ↔ Hex text := by
  unfold isHex Hex
  split
  · rename_i digits split
    simp only [split, Bool.and_eq_true, Bool.or_eq_true, beq_iff_eq, List.all_eq_true]
    constructor
    · intro valid
      exact ⟨digits, rfl, valid⟩
    · rintro ⟨_, same, valid⟩
      cases same
      exact valid
  · rename_i other
    constructor
    · intro impossible
      cases impossible
    · rintro ⟨digits, split, _⟩
      exact (other digits split).elim

theorem hex?_isSome_iff {text : String} : (hex? text).isSome = true ↔ Named text := by
  simp [hex?, Named, List.lookup_isSome_iff]

end Color

inductive Operand : Token → Expr → Prop where
  | pixel {token : Token} {magnitude : Int32} (kind : token.kind = .pixel)
      (written : WritesMagnitude token.text "px" magnitude) :
      Operand token (.literal (.pixel magnitude) .null)
  | percentage {token : Token} {magnitude : Int32} (kind : token.kind = .percentage)
      (written : WritesMagnitude token.text "%" magnitude) :
      Operand token (.literal (.percentage magnitude) .null)
  | scalar {token : Token} {magnitude : Int32} (kind : token.kind = .scalar)
      (written : WritesMagnitude token.text "" magnitude) :
      Operand token (.literal (.scalar magnitude) .null)
  | hash {token : Token} (kind : token.kind = .hash) (color : Color.Hex token.text) :
      Operand token (.literal (.color token.text) .null)
  | identifier {token : Token} (kind : token.kind = .identifier)
      (color : Color.Named token.text) : Operand token (.literal (.color token.text) .null)
  | variableName {token : Token} (kind : token.kind = .variableName) :
      Operand token (.reference token.text .null none)

theorem Token.color_eq_ok {token : Token} {valid : Bool} {value : Literal} :
    token.color valid = .ok value ↔ valid = true ∧ value = .color token.text := by
  cases valid <;> simp [color, eq_comm]

theorem Operand.of_operand {token : Token} {expr : Expr} (read : token.operand = .ok expr) :
    Operand token expr.bare := by
  unfold Token.operand at read
  split at read
  · rename_i kind
    obtain ⟨magnitude, found, read⟩ := ok_of_bind read
    cases read
    exact .pixel kind (Token.magnitude_eq_ok.mp found)
  · rename_i kind
    obtain ⟨magnitude, found, read⟩ := ok_of_bind read
    cases read
    exact .percentage kind (Token.magnitude_eq_ok.mp found)
  · rename_i kind
    obtain ⟨magnitude, found, read⟩ := ok_of_bind read
    cases read
    exact .scalar kind (Token.magnitude_eq_ok.mp found)
  · rename_i kind
    obtain ⟨value, found, read⟩ := ok_of_bind read
    obtain ⟨valid, rfl⟩ := Token.color_eq_ok.mp found
    cases read
    exact .hash kind (Color.isHex_iff.mp valid)
  · rename_i kind
    obtain ⟨value, found, read⟩ := ok_of_bind read
    obtain ⟨valid, rfl⟩ := Token.color_eq_ok.mp found
    cases read
    exact .identifier kind (Color.hex?_isSome_iff.mp valid)
  · rename_i kind
    cases read
    exact .variableName kind
  · cases read

theorem Operand.operand_eq {token : Token} {tree : Expr} (operand : Operand token tree) :
    ∃ expr, token.operand = .ok expr ∧ expr.bare = tree := by
  cases operand with
  | pixel kind written =>
      rw [Token.operand, kind]
      exact ⟨_, by rw [Token.magnitude_eq_ok.mpr written]; rfl, rfl⟩
  | percentage kind written =>
      rw [Token.operand, kind]
      exact ⟨_, by rw [Token.magnitude_eq_ok.mpr written]; rfl, rfl⟩
  | scalar kind written =>
      rw [Token.operand, kind]
      exact ⟨_, by rw [Token.magnitude_eq_ok.mpr written]; rfl, rfl⟩
  | hash kind color =>
      rw [Token.operand, kind]
      exact ⟨_, by rw [Token.color_eq_ok.mpr ⟨Color.isHex_iff.mpr color, rfl⟩]; rfl, rfl⟩
  | identifier kind color =>
      rw [Token.operand, kind]
      exact ⟨_, by rw [Token.color_eq_ok.mpr ⟨Color.hex?_isSome_iff.mpr color, rfl⟩]; rfl, rfl⟩
  | variableName kind =>
      rw [Token.operand, kind]
      exact ⟨_, rfl, rfl⟩

theorem Token.span_of_operand {token : Token} {tree : Expr} (read : token.operand = .ok tree) :
    tree.span = token.span := by
  have literal {Part : Type} {part : Except Fault Part} {make : Part → Literal}
      (read : (do return .literal (make (← part)) token.span : Except Fault Expr) = .ok tree) :
      tree.span = token.span := by
    obtain ⟨_, _, read⟩ := ok_of_bind read
    cases read
    rfl
  unfold Token.operand at read
  split at read
  · exact literal read
  · exact literal read
  · exact literal read
  · exact literal read
  · exact literal read
  · cases read
    rfl
  · cases read

inductive Fault.Refuses (text : String) : Fault → Prop where
  | token : Refuses text (.unexpectedToken text)
  | number : Refuses text (.unreadableNumber text)
  | color : Refuses text (.invalidColor text)

theorem Fault.Refuses.stage {fault : Fault} {text : String} (refuses : fault.Refuses text) :
    fault.stage = .reading := by
  cases refuses <;> rfl

theorem Token.refuses_of_operand {token : Token} {fault : Fault}
    (failed : token.operand = .error fault) : fault.Refuses token.text := by
  have number : ∀ {unit}, token.magnitude unit = .error fault → fault.Refuses token.text := by
    intro unit failed
    unfold magnitude at failed
    dsimp only at failed
    split at failed <;> cases failed
    exact .number
  have color : ∀ {valid}, token.color valid = .error fault → fault.Refuses token.text := by
    intro valid failed
    unfold Token.color at failed
    split at failed <;> cases failed
    exact .color
  unfold operand at failed
  split at failed
  · exact number ((error_of_bind failed).resolve_right nofun)
  · exact number ((error_of_bind failed).resolve_right nofun)
  · exact number ((error_of_bind failed).resolve_right nofun)
  · exact color ((error_of_bind failed).resolve_right nofun)
  · exact color ((error_of_bind failed).resolve_right nofun)
  · cases failed
  · cases failed
    exact .token

/-- A token as a selector. The sign in front of a class or an id is not part of its name. -/
inductive Selects : Token → Selector → Prop where
  | tag {token : Token} (kind : token.kind = .identifier) : Selects token (.tag token.text)
  | byClass {token : Token} {sign : Char} {name : List Char} (kind : token.kind = .classSelector)
      (text : token.text.toList = sign :: name) : Selects token (.byClass (String.ofList name))
  | byId {token : Token} {sign : Char} {name : List Char} (kind : token.kind = .hash)
      (text : token.text.toList = sign :: name) : Selects token (.byId (String.ofList name))

theorem Token.signedName_eq_ok {token : Token} {sign : Char} {name : List Char}
    (text : token.text.toList = sign :: name) (signed : sign.utf8Size = 1) :
    token.signedName = .ok (String.ofList name) := by
  unfold signedName
  rw [text]
  exact if_pos signed

theorem Token.Signed.sign_utf8Size {token : Token} {sign : Char} {name : List Char}
    (signed : token.Signed) (selector : token.kind = .classSelector ∨ token.kind = .hash)
    (text : token.text.toList = sign :: name) : sign.utf8Size = 1 := by
  obtain ⟨_, _, same, oneByte⟩ := signed selector
  rw [text] at same
  cases same
  exact oneByte

theorem Selects.selector_eq {token : Token} {selector : Selector} (signed : token.Signed)
    (selects : Selects token selector) : token.selector = .ok selector := by
  cases selects with
  | tag kind => rw [Token.selector, kind]
  | byClass kind text =>
      have oneByte := signed.sign_utf8Size (Or.inl kind) text
      rw [Token.selector, kind, Token.signedName_eq_ok text oneByte]
      rfl
  | byId kind text =>
      have oneByte := signed.sign_utf8Size (Or.inr kind) text
      rw [Token.selector, kind, Token.signedName_eq_ok text oneByte]
      rfl

/-- A signed token is read as the selector that it writes, or it is no selector at all. -/
theorem Token.selector_cases {token : Token} (signed : token.Signed) :
    (∃ selector, Selects token selector ∧ token.selector = .ok selector ∧ token.kind ≠ .eof) ∨
      token.selector = .error (.fault ⟨.unexpectedToken token.text, token.span.start⟩) := by
  by_cases name : token.kind = .identifier
  · exact Or.inl ⟨_, .tag name, (Selects.tag name).selector_eq signed, by simp [name]⟩
  by_cases byClass : token.kind = .classSelector
  · obtain ⟨_, _, text, _⟩ := signed (Or.inl byClass)
    have selects := Selects.byClass byClass text
    exact Or.inl ⟨_, selects, selects.selector_eq signed, by simp [byClass]⟩
  by_cases byId : token.kind = .hash
  · obtain ⟨_, _, text, _⟩ := signed (Or.inr byId)
    have selects := Selects.byId byId text
    exact Or.inl ⟨_, selects, selects.selector_eq signed, by simp [byId]⟩
  · right
    unfold selector
    split <;> first | contradiction | rfl

end TypedStyle
