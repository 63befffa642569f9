import Mathlib.Data.Nat.Digits.Defs
import TypedStyle.Proofs.ExactValues
import TypedStyle.Proofs.Operand
import TypedStyle.Proofs.Tiling

/-!
Numbers at the limits of 32 bits. A number token is read if its text, without its unit, writes an
integer that fits: an optional sign and any number of decimal digits, leading zeros included. Any
other text is rejected as a whole, and the token is not passed.
-/

namespace TypedStyle

namespace Text

def decimalValue (digits : List Char) : Nat :=
  Nat.ofDigits 10 (digits.reverse.map fun digit => digit.toNat - '0'.toNat)

theorem digitsValue_eq_decimalValue (digits : List Char) :
    digitsValue digits = decimalValue digits := by
  rw [decimalValue, Nat.ofDigits_eq_foldr, List.foldr_map, List.foldr_reverse, digitsValue]
  congr
  funext value digit
  exact Nat.add_comm _ _

theorem decimalValue_leadingZeros (zeros : Nat) (digits : List Char) :
    decimalValue (List.replicate zeros '0' ++ digits) = decimalValue digits := by
  simp only [decimalValue, List.reverse_append, List.reverse_replicate, List.map_append,
    List.map_replicate, Nat.sub_self, Nat.ofDigits_append_replicate_zero]

inductive Sign where
  | absent
  | plus
  | minus
  deriving DecidableEq

def Sign.text : Sign → List Char
  | .absent => []
  | .plus => ['+']
  | .minus => ['-']

def Sign.factor : Sign → Int
  | .absent | .plus => 1
  | .minus => -1

theorem numeral_iff {text : List Char} {value : Int} :
    Numeral text value ↔ ∃ (sign : Sign) (digits : List Char), Decimal digits ∧
      text = sign.text ++ digits ∧ value = sign.factor * decimalValue digits := by
  constructor
  · intro numeral
    cases numeral with
    | @unsigned digits decimal =>
        exact ⟨.absent, text, decimal, rfl, by simp [Sign.factor, digitsValue_eq_decimalValue]⟩
    | @plus digits decimal =>
        exact ⟨.plus, digits, decimal, rfl, by simp [Sign.factor, digitsValue_eq_decimalValue]⟩
    | @minus digits decimal =>
        exact ⟨.minus, digits, decimal, rfl, by simp [Sign.factor, digitsValue_eq_decimalValue]⟩
  · rintro ⟨sign, digits, decimal, rfl, rfl⟩
    rw [← digitsValue_eq_decimalValue]
    cases sign with
    | absent => simpa [Sign.text, Sign.factor] using Numeral.unsigned decimal
    | plus => simpa [Sign.text, Sign.factor] using Numeral.plus decimal
    | minus => simpa [Sign.text, Sign.factor] using Numeral.minus decimal

/-- What is left of the text when the unit is taken from its end, once and if it is there. -/
def Strips (text unit rest : List Char) : Prop :=
  text = rest ++ unit ∨ ¬ unit <:+ text ∧ text = rest

/-- Without the unit, the text is an optional sign and at least one decimal digit, and these write
the value. -/
def WritesInteger (text unit : String) (value : Int) : Prop :=
  ∃ (sign : Sign) (digits : List Char), Decimal digits ∧
    Strips text.toList unit.toList (sign.text ++ digits) ∧
    value = sign.factor * decimalValue digits

def Fits32 (value : Int) : Prop := -2147483648 ≤ value ∧ value ≤ 2147483647

theorem fits32_iff {value : Int} : Fits32 value ↔ ∃ magnitude : Int32, magnitude.toInt = value := by
  constructor
  · rintro ⟨low, high⟩
    exact ⟨.ofInt value, Int32.toInt_ofInt_of_le low (by omega)⟩
  · rintro ⟨magnitude, rfl⟩
    have low := magnitude.le_toInt
    have high := magnitude.toInt_lt
    exact ⟨low, by omega⟩

theorem writesInteger_iff {text unit : String} {magnitude : Int32} :
    WritesInteger text unit magnitude.toInt ↔ WritesMagnitude text unit magnitude := by
  simp only [WritesInteger, WritesMagnitude, numeral_iff, Strips]
  constructor
  · rintro ⟨sign, digits, decimal, strips, value⟩
    exact ⟨_, ⟨sign, digits, decimal, rfl, value⟩, strips⟩
  · rintro ⟨_, ⟨sign, digits, decimal, rfl, value⟩, strips⟩
    exact ⟨sign, digits, decimal, strips, value⟩

/-- Digits in front of the unit write their value and nothing else. -/
theorem writesInteger_of_decimal {text unit : String} {digits : List Char}
    (decimal : Decimal digits) (split : text.toList = digits ++ unit.toList) {value : Int} :
    WritesInteger text unit value ↔ value = decimalValue digits := by
  constructor
  · rintro ⟨sign, others, _, same | ⟨absent, _⟩, rfl⟩
    · have same := List.append_cancel_right (split.symm.trans same)
      cases sign with
      | absent =>
          cases same
          simp [Sign.text, Sign.factor]
      | plus =>
          cases same
          exact absurd (decimal.2 '+' List.mem_cons_self) (by decide)
      | minus =>
          cases same
          exact absurd (decimal.2 '-' List.mem_cons_self) (by decide)
    · exact absurd ⟨digits, split.symm⟩ absent
  · rintro rfl
    exact ⟨.absent, digits, decimal, Or.inl split, by simp [Sign.factor]⟩

end Text

open Text

namespace Measure

def kind : Measure → TokenKind
  | .pixel => .pixel
  | .percentage => .percentage
  | .scalar => .scalar

def unit : Measure → String
  | .pixel => "px"
  | .percentage => "%"
  | .scalar => ""

theorem literal_inj {measure : Measure} {one other : Int32} :
    measure.literal one = measure.literal other ↔ one = other := by
  cases measure <;> simp [literal]

theorem operand_eq {measure : Measure} {token : Token} (kind : token.kind = measure.kind) :
    token.operand =
      (token.magnitude measure.unit).map fun magnitude =>
        .literal (measure.literal magnitude) token.span := by
  cases measure with
  | pixel | percentage | scalar =>
      simp only [Token.operand, kind, Measure.kind, unit, literal]
      cases token.magnitude _ <;> rfl

theorem exists_digits {measure : Measure} {text : String}
    (written : text.toList ∈ measure.kind.pattern) :
    ∃ digits, Decimal digits ∧ text.toList = digits ++ measure.unit.toList := by
  cases measure with
  | pixel | percentage =>
      obtain ⟨digits, decimal, _, rfl, same⟩ := Language.mem_mul.mp written
      exact ⟨digits, Pattern.mem_many1.mp decimal, same.symm⟩
  | scalar => exact ⟨text.toList, Pattern.mem_many1.mp written, (List.append_nil _).symm⟩

end Measure

theorem Token.magnitude_error {token : Token} {unit : String} {fault : Fault}
    (failed : token.magnitude unit = .error fault) : fault = .unreadableNumber token.text := by
  unfold Token.magnitude at failed
  dsimp only at failed
  split at failed <;> cases failed
  rfl

theorem Token.mem_pattern_of_source {source file : String} {tokens : List Token} {token : Token}
    (split : Token.ofSource source file = .ok tokens) (member : token ∈ tokens)
    (inside : token.kind ≠ .eof) : token.text.toList ∈ token.kind.pattern := by
  obtain ⟨words, last, rfl, rfl, every, _⟩ := (Tiles.of_source split).exists_words
  rcases List.mem_append.mp member with word | ending
  · exact (every token word).2
  · cases List.mem_singleton.mp ending
    exact absurd rfl inside

namespace Read

variable {measure : Measure} {cursor : Cursor}

theorem primary_number (kind : cursor.current.kind = measure.kind) :
    primary cursor =
      match cursor.current.magnitude measure.unit with
      | .ok magnitude =>
          .ok (.literal (measure.literal magnitude) cursor.current.span) cursor.advance
      | .error fault => .error (.fault ⟨fault, cursor.position⟩) cursor := by
  rw [primary, bind_eq, current_eq]
  dsimp only
  rw [Measure.operand_eq kind]
  cases cursor.current.magnitude measure.unit <;> rfl

theorem primary_eq_literal_iff (kind : cursor.current.kind = measure.kind) {magnitude : Int32} :
    primary cursor =
        .ok (.literal (measure.literal magnitude) cursor.current.span) cursor.advance ↔
      WritesInteger cursor.current.text measure.unit magnitude.toInt := by
  rw [writesInteger_iff, ← Token.magnitude_eq_ok, primary_number kind]
  cases cursor.current.magnitude measure.unit with
  | error fault => simp
  | ok other => simp [Measure.literal_inj]

theorem primary_unreadable (kind : cursor.current.kind = measure.kind)
    (unwritten : ∀ value, WritesInteger cursor.current.text measure.unit value → ¬ Fits32 value) :
    primary cursor =
      .error (.fault ⟨.unreadableNumber cursor.current.text, cursor.position⟩) cursor := by
  rw [primary_number kind]
  cases found : cursor.current.magnitude measure.unit with
  | error fault =>
      cases Token.magnitude_error found
      rfl
  | ok magnitude =>
      have written := writesInteger_iff.mpr (Token.magnitude_eq_ok.mp found)
      exact absurd (fits32_iff.mpr ⟨magnitude, rfl⟩) (unwritten _ written)

theorem exists_primary_iff (kind : cursor.current.kind = measure.kind) :
    (∃ expr next, primary cursor = .ok expr next) ↔
      ∃ value, WritesInteger cursor.current.text measure.unit value ∧ Fits32 value := by
  constructor
  · rintro ⟨expr, next, done⟩
    by_contra unwritten
    rw [primary_unreadable kind fun value written fits => unwritten ⟨value, written, fits⟩] at done
    cases done
  · rintro ⟨value, written, fits⟩
    obtain ⟨magnitude, rfl⟩ := fits32_iff.mp fits
    exact ⟨_, _, (primary_eq_literal_iff kind).mpr written⟩

/-- A number token is read if its text writes an integer that fits 32 bits, and then as this
integer, whatever its sign and however many zeros it starts with. Otherwise the text is reported as
unreadable at the start of the token, which stays the current one. So a number of a source is read
exactly if the value of its digits is at most 2147483647. -/
theorem primary_exact (measure : Measure) (cursor : Cursor)
    (kind : cursor.current.kind = measure.kind) :
    (∀ value : Int,
      (∃ magnitude : Int32, magnitude.toInt = value ∧ primary cursor =
        .ok (.literal (measure.literal magnitude) cursor.current.span) cursor.advance) ↔
      WritesInteger cursor.current.text measure.unit value ∧ Fits32 value) ∧
    ((¬ ∃ value, WritesInteger cursor.current.text measure.unit value ∧ Fits32 value) →
      primary cursor =
        .error (.fault ⟨.unreadableNumber cursor.current.text, cursor.current.span.start⟩) cursor) ∧
    (∀ zeros digits, decimalValue (List.replicate zeros '0' ++ digits) = decimalValue digits) ∧
    ∀ source file tokens, Token.ofSource source file = .ok tokens → cursor.current ∈ tokens →
      ∃ digits, Decimal digits ∧ cursor.current.text.toList = digits ++ measure.unit.toList ∧
        ((∃ expr next, primary cursor = .ok expr next) ↔ decimalValue digits ≤ 2147483647) := by
  refine ⟨?_, ?_, decimalValue_leadingZeros, ?_⟩
  · intro value
    constructor
    · rintro ⟨magnitude, rfl, done⟩
      exact ⟨(primary_eq_literal_iff kind).mp done, fits32_iff.mpr ⟨magnitude, rfl⟩⟩
    · rintro ⟨written, fits⟩
      obtain ⟨magnitude, rfl⟩ := fits32_iff.mp fits
      exact ⟨magnitude, rfl, (primary_eq_literal_iff kind).mpr written⟩
  · intro unwritten
    exact primary_unreadable kind fun value written fits => unwritten ⟨value, written, fits⟩
  · intro source file tokens split member
    have inside : cursor.current.kind ≠ .eof := by
      rw [kind]
      cases measure <;> decide
    have written := Token.mem_pattern_of_source split member inside
    rw [kind] at written
    obtain ⟨digits, decimal, text⟩ := Measure.exists_digits written
    refine ⟨digits, decimal, text, ?_⟩
    -- The token has no sign, so that only the upper limit can be missed.
    rw [exists_primary_iff kind]
    simp only [writesInteger_of_decimal decimal text, exists_eq_left, Fits32]
    omega

def atNumber (kind : TokenKind) (text : String) : Cursor :=
  ⟨[], ⟨kind, text, .ofBytes 4 20 "s"⟩, [.eof ⟨20, "s"⟩]⟩

/-- The least number is read, with a zero in front of it, and the one after the greatest is not. -/
theorem primary_exact_limits :
    (∃ magnitude : Int32, magnitude.toInt = -2147483648 ∧
      primary (atNumber .pixel "-02147483648px") =
        .ok (.literal (.pixel magnitude) (.ofBytes 4 20 "s"))
          (atNumber .pixel "-02147483648px").advance) ∧
    primary (atNumber .scalar "2147483648") =
      .error (.fault ⟨.unreadableNumber "2147483648", ⟨4, "s"⟩⟩)
        (atNumber .scalar "2147483648") := by
  have least : WritesInteger "-02147483648px" "px" (-2147483648) := by
    refine ⟨.minus, "02147483648".toList, ⟨by simp, by simp⟩, Or.inl (by decide), ?_⟩
    rw [← digitsValue_eq_decimalValue]
    decide
  have beyond : ¬ ∃ value, WritesInteger "2147483648" "" value ∧ Fits32 value := by
    rintro ⟨value, written, fits⟩
    have decimal : Decimal "2147483648".toList := ⟨by simp, by simp⟩
    have same := (writesInteger_of_decimal decimal (List.append_nil _).symm).mp written
    rw [← digitsValue_eq_decimalValue] at same
    have same : value = 2147483648 := same
    exact absurd fits.2 (by omega)
  have read := (primary_exact .pixel (atNumber .pixel "-02147483648px") rfl).1 (-2147483648)
  have rejected := (primary_exact .scalar (atNumber .scalar "2147483648") rfl).2.1 beyond
  exact ⟨read.mpr ⟨least, by decide, by decide⟩, rejected⟩

end Read

end TypedStyle
