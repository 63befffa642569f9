import TypedStyle.Proofs.Layout
import TypedStyle.Proofs.Written

/-!
The words of the text of blocks. Whatever the indentation, the text splits into the selectors with
commas between the paths, and into the name, the value and the signs of each setting, as long as no
value is negative.
-/

namespace TypedStyle

open Text
open scoped Computability

namespace Lexeme

/-- The text says these words in front of anything that does not go on with the last of them. -/
def Writes (text : List Char) (said : List (TokenKind × String)) : Prop :=
  ∀ back rest, Cut.Stops Form.goesOn back → Spells back rest → Spells (text ++ back) (said ++ rest)

variable {text more : List Char} {said others : List (TokenKind × String)}

theorem writes_nil : Writes [] [] := fun _ _ _ spells => spells

theorem Writes.spells (writes : Writes text said) : Spells text said := by
  simpa using writes [] [] (Cut.stops_nil _) spells_nil

theorem stops_append (stops : Cut.Stops Form.goesOn text) {back : List Char}
    (after : Cut.Stops Form.goesOn back) : Cut.Stops Form.goesOn (text ++ back) := by
  cases text with
  | nil => exact after
  | cons first later => exact stops

theorem Writes.append (here : Writes text said) (there : Writes more others)
    (apart : Cut.Stops Form.goesOn more) : Writes (text ++ more) (said ++ others) := by
  intro back rest stops spells
  rw [List.append_assoc, List.append_assoc]
  exact here _ _ (stops_append apart stops) (there back rest stops spells)

theorem writes_token {kind : TokenKind} {word : String} (written : word.toList ∈ kind.pattern) :
    Writes word.toList [(kind, word)] := by
  intro back rest stops spells
  have token := spells.token written stops
  rwa [String.ofList_toList] at token

theorem Writes.blank_cons {first : Char} (blank : isBlank first = true)
    (writes : Writes text said) : Writes (first :: text) said := by
  intro back rest stops spells
  exact (spells_blank blank).mpr (writes back rest stops spells)

theorem Writes.spaces_append (writes : Writes text said) (count : Nat) :
    Writes (List.replicate count ' ' ++ text) said := by
  induction count with
  | zero => exact writes
  | succ count ih => exact ih.blank_cons (by decide)

-- A sign in front of a blank.
theorem Writes.sign_cons (writes : Writes text said) (kind : TokenKind) (word : String)
    (sign blank : Char) (spelled : word.toList = [sign]) (written : [sign] ∈ kind.pattern)
    (space : isBlank blank = true) :
    Writes (sign :: blank :: text) ((kind, word) :: said) := by
  rw [← spelled] at written
  have stops : Cut.Stops Form.goesOn (blank :: text) := by
    rintro _ ⟨⟩
    exact Form.not_goesOn_of_isBlank space
  have whole := (writes_token written).append (writes.blank_cons space) stops
  rwa [spelled] at whole

end Lexeme

theorem mem_identifier_pattern {first : Char} {rest : List Char}
    (letter : Form.isLetter first = true) (named : rest.all Form.isNameChar = true) :
    first :: rest ∈ TokenKind.identifier.pattern := by
  have later := Pattern.mem_kstar_one.mpr (List.all_eq_true.mp named)
  exact Language.mem_mul.mpr ⟨[first], ⟨first, letter, rfl⟩, rest, later, rfl⟩

theorem Property.name_mem_pattern (property : Property) :
    property.name.toList ∈ TokenKind.identifier.pattern := by
  cases property <;> exact mem_identifier_pattern (by decide) (by decide)

namespace Color

theorem isNameChar_of_isHexDigit {char : Char} (hex : isHexDigit char = true) :
    Form.isNameChar char = true := by
  rw [Form.isNameChar_iff]
  simp only [isHexDigit, Bool.or_eq_true, Bool.and_eq_true, decide_eq_true_eq, Char.le_def,
    UInt32.le_iff_toNat_le] at hex
  rcases hex with (digit | lower) | upper
  · exact Or.inr (Or.inl digit)
  · have high : char.toNat ≤ 102 := lower.2
    exact Or.inl (Form.isLetter_iff.mpr (Or.inr (Or.inl ⟨lower.1, by omega⟩)))
  · have high : char.toNat ≤ 70 := upper.2
    exact Or.inl (Form.isLetter_iff.mpr (Or.inl ⟨upper.1, by omega⟩))

theorem Hex.mem_pattern {text : String} (hex : Hex text) :
    text.toList ∈ TokenKind.hash.pattern := by
  obtain ⟨digits, split, length, every⟩ := hex
  rw [split]
  refine Language.mem_mul.mpr ⟨['#'], rfl, digits, Pattern.mem_many1.mpr ⟨?_, ?_⟩, rfl⟩
  · rintro rfl
    simp at length
  · intro digit member
    exact isNameChar_of_isHexDigit (every digit member)

theorem Named.mem_pattern {text : String} (name : Named text) :
    text.toList ∈ TokenKind.identifier.pattern ∧ isHex text = false := by
  have every : ∀ entry ∈ named, isHex entry.1 = false ∧
      ∃ first rest, entry.1.toList = first :: rest ∧ Form.isLetter first = true ∧
        rest.all Form.isNameChar = true := by
    simp only [named, List.forall_mem_cons]
    refine ⟨?_, ?_, ?_, ?_, ?_, ?_, ?_, ?_, ?_, ?_, ?_, ?_, ?_, ?_, ?_, nofun⟩ <;>
      exact ⟨by decide, _, _, rfl, by decide, by decide⟩
  obtain ⟨hex, member⟩ := name
  obtain ⟨unhashed, first, rest, split, letter, named⟩ := every _ member
  rw [split]
  exact ⟨mem_identifier_pattern letter named, unhashed⟩

end Color

def Literal.kind : Literal → TokenKind
  | .pixel _ => .pixel
  | .percentage _ => .percentage
  | .scalar _ => .scalar
  | .color text => if Color.isHex text then .hash else .identifier

def Literal.NonNegative (literal : Literal) : Prop :=
  ∀ magnitude, literal.magnitude? = some magnitude → 0 ≤ magnitude.toInt

theorem toList_toString_natural (value : Nat) :
    (toString (value : Int)).toList = Nat.toDigits 10 value := by
  change (Nat.repr value).toList = _
  exact Nat.toList_repr

theorem decimal_toDigits (value : Nat) : Decimal (Nat.toDigits 10 value) :=
  ⟨Nat.toDigits_ne_nil, fun _ member => Nat.isDigit_of_mem_toDigits (by decide) (by decide) member⟩

theorem digitsValue_toDigits (value : Nat) : digitsValue (Nat.toDigits 10 value) = value :=
  Nat.ofDigitChars_ten_toDigits

/-- A magnitude that is not negative is written by its decimal digits. -/
theorem exists_digits {magnitude : Int32} (natural : 0 ≤ magnitude.toInt) :
    ∃ digits, (toString magnitude.toInt).toList = digits ∧ Decimal digits ∧
      Numeral digits magnitude.toInt := by
  obtain ⟨value, same⟩ := Int.eq_ofNat_of_zero_le natural
  have decimal := decimal_toDigits value
  have numeral := Numeral.unsigned decimal
  rw [digitsValue_toDigits] at numeral
  exact ⟨_, by rw [same]; exact toList_toString_natural value, decimal, by rwa [same]⟩

theorem Literal.text_mem_pattern {value : Literal} (written : value.Written)
    (natural : value.NonNegative) : value.text.toList ∈ value.kind.pattern := by
  have number {magnitude : Int32} (natural : 0 ≤ magnitude.toInt) :
      (toString magnitude.toInt).toList ∈ Pattern.many1 Char.isDigit := by
    obtain ⟨digits, same, decimal, _⟩ := exists_digits natural
    rw [same]
    exact Pattern.mem_many1.mpr decimal
  cases value with
  | pixel magnitude | percentage magnitude =>
      rw [text, String.toList_append]
      exact Language.append_mem_mul (number (natural magnitude rfl)) rfl
  | scalar magnitude => exact number (natural magnitude rfl)
  | color text =>
      rcases written with hex | named
      · rw [kind, if_pos (Color.isHex_iff.mpr hex)]
        exact hex.mem_pattern
      · rw [kind, named.mem_pattern.2]
        exact named.mem_pattern.1

theorem Literal.operand {value : Literal} (written : value.Written) (natural : value.NonNegative)
    {token : Token} (said : token.word = (value.kind, value.text)) :
    Operand token (.literal value .null) := by
  obtain ⟨kind, spelled⟩ := Prod.mk.inj said
  have number {magnitude : Int32} {unit : String} (natural : 0 ≤ magnitude.toInt)
      (spelled : token.text = toString magnitude.toInt ++ unit) :
      WritesMagnitude token.text unit magnitude := by
    obtain ⟨digits, same, _, numeral⟩ := exists_digits natural
    exact ⟨digits, numeral, Or.inl (by rw [spelled, String.toList_append, same])⟩
  cases value with
  | pixel magnitude => exact .pixel kind (number (natural magnitude rfl) spelled)
  | percentage magnitude => exact .percentage kind (number (natural magnitude rfl) spelled)
  | scalar magnitude =>
      exact .scalar kind (number (natural magnitude rfl) (by simpa [text] using spelled))
  | color name =>
      cases spelled
      rcases written with hex | named
      · rw [Literal.kind, if_pos (Color.isHex_iff.mpr hex)] at kind
        exact .hash kind hex
      · rw [Literal.kind, named.mem_pattern.2] at kind
        exact .identifier kind named

namespace Css

open Lexeme

def settingWords (setting : Property × Literal) : List (TokenKind × String) :=
  [(.identifier, setting.1.name), (.colon, ":"), (setting.2.kind, setting.2.text),
    (.semicolon, ";")]

def pathWords (path : List Selector) : List (TokenKind × String) :=
  path.map fun selector => (selector.kind, selector.text)

def headWords : List (List Selector) → List (TokenKind × String)
  | [] => []
  | [path] => pathWords path
  | path :: next :: later => pathWords path ++ (.comma, ",") :: headWords (next :: later)

def Block.words (block : Block) : List (TokenKind × String) :=
  headWords block.paths ++ (.openCurly, "\x7b") ::
    (block.settings.flatMap settingWords ++ [(.closeCurly, "\x7d")])

def Plain (setting : Property × Literal) : Prop := setting.2.Written ∧ setting.2.NonNegative

theorem writes_setting {setting : Property × Literal} (plain : Plain setting) (indent : Nat)
    {text : List Char} {said : List (TokenKind × String)} (writes : Writes text said) :
    Writes ((settingText indent setting).toList ++ text) (settingWords setting ++ said) := by
  have ended := writes.sign_cons .semicolon ";" ';' '\n' rfl rfl (by decide)
  have value := (writes_token (setting.2.text_mem_pattern plain.1 plain.2)).append ended
    (by rintro _ ⟨⟩; decide)
  have colon := value.sign_cons .colon ":" ':' ' ' rfl rfl (by decide)
  have name := (writes_token setting.1.name_mem_pattern).append colon (by rintro _ ⟨⟩; decide)
  simpa [settingText, settingWords] using name.spaces_append indent

theorem writes_settings {settings : List (Property × Literal)}
    (plain : ∀ setting ∈ settings, Plain setting) (indent : Nat) {text : List Char}
    {said : List (TokenKind × String)} (writes : Writes text said) :
    Writes ((String.join (settings.map (settingText indent))).toList ++ text)
      (settings.flatMap settingWords ++ said) := by
  induction settings with
  | nil => simpa [String.join_nil] using writes
  | cons setting later ih =>
      obtain ⟨here, there⟩ := List.forall_mem_cons.mp plain
      simpa [String.join_cons] using writes_setting here indent (ih there)

theorem writes_path {path : List Selector} (written : PathWritten path) :
    Writes (pathText path).toList (pathWords path) := by
  obtain ⟨nonempty, every⟩ := written
  induction path with
  | nil => exact absurd rfl nonempty
  | cons selector later ih =>
      obtain ⟨here, there⟩ := List.forall_mem_cons.mp every
      cases later with
      | nil =>
          rw [pathText, List.map_singleton, String.intercalate_singleton]
          exact writes_token here
      | cons next later =>
          have rest := (ih (List.cons_ne_nil _ _) there).blank_cons (by decide : isBlank ' ' = true)
          have whole := (writes_token here).append rest (by rintro _ ⟨⟩; decide)
          simpa [pathText, String.intercalate_cons_cons, pathWords] using whole

theorem writes_heads {paths : List (List Selector)} (nonempty : paths ≠ [])
    (written : ∀ path ∈ paths, PathWritten path) :
    Writes (", ".intercalate (paths.map pathText)).toList (headWords paths) := by
  induction paths with
  | nil => exact absurd rfl nonempty
  | cons path later ih =>
      obtain ⟨here, there⟩ := List.forall_mem_cons.mp written
      cases later with
      | nil =>
          rw [List.map_singleton, String.intercalate_singleton]
          exact writes_path here
      | cons next later =>
          have rest := (ih (List.cons_ne_nil _ _) there).sign_cons .comma "," ',' ' ' rfl rfl
            (by decide)
          have whole := (writes_path here).append rest (by rintro _ ⟨⟩; decide)
          simpa [String.intercalate_cons_cons, headWords] using whole

theorem writes_block {block : Block} (sound : block.Sound Plain) (indent : Nat) :
    Writes (block.text indent).toList block.words := by
  obtain ⟨⟨nonempty, heads⟩, _, plain⟩ := sound
  have closing : Writes "\x7d".toList [(.closeCurly, "\x7d")] := writes_token rfl
  have body := writes_settings plain indent closing
  have opened := body.sign_cons .openCurly "\x7b" '\x7b' '\n' rfl rfl (by decide)
  have spaced := opened.blank_cons (by decide : isBlank ' ' = true)
  have whole := (writes_heads nonempty heads).append spaced (by rintro _ ⟨⟩; decide)
  simpa [Block.text, Block.words] using whole

/-- The text of blocks splits into the words of the blocks. -/
theorem spells_text {blocks : List Block} (sound : ∀ block ∈ blocks, block.Sound Plain)
    (indent : Nat) : Spells (text indent blocks).toList (blocks.flatMap Block.words) := by
  have newline : isBlank '\n' = true := by decide
  have ended : Writes ['\n'] [] := writes_nil.blank_cons newline
  have apart (text : List Char) : Cut.Stops Form.goesOn ('\n' :: text) := by
    rintro _ ⟨⟩
    decide
  apply Writes.spells
  induction blocks with
  | nil => exact writes_nil
  | cons block later ih =>
      obtain ⟨here, there⟩ := List.forall_mem_cons.mp sound
      cases later with
      | nil =>
          have only := (writes_block here indent).append ended (apart [])
          simpa [text] using only
      | cons next later =>
          have rest := ((ih there).blank_cons newline).blank_cons newline
          have whole := (writes_block here indent).append rest (apart _)
          simpa [text, String.intercalate_cons_cons] using whole

end Css

end TypedStyle
