import Mathlib.Data.List.TakeWhile
import TypedStyle.Proofs.Lines
import TypedStyle.Proofs.Positions

/-!
What a report shows. A character of a source that is not blank is seen in the line that holds it,
and stays there when the indentation and the blanks at the end are taken off. A report numbers this
line and draws an arrow under it. As many bytes stand before the head of the arrow as before the
character. As many characters do exactly if every character before it in the line has one byte.
-/

namespace TypedStyle

open Text

namespace Text

theorem length_le_byteLength (text : List Char) : text.length ≤ byteLength text := by
  induction text with
  | nil => exact Nat.le_refl 0
  | cons first rest ih =>
      have size := first.utf8Size_pos
      rw [List.length_cons, byteLength_cons]
      omega

theorem byteLength_eq_length_iff (text : List Char) :
    byteLength text = text.length ↔ ∀ char ∈ text, char.utf8Size = 1 := by
  induction text with
  | nil => simp
  | cons first rest ih =>
      have size := first.utf8Size_pos
      have longer := length_le_byteLength rest
      rw [List.forall_mem_cons, List.length_cons, byteLength_cons]
      constructor
      · intro same
        exact ⟨by omega, ih.mp (by omega)⟩
      · rintro ⟨single, others⟩
        have same := ih.mpr others
        omega

theorem byteLength_replicate {char : Char} (one : char.utf8Size = 1) (count : Nat) :
    byteLength (List.replicate count char) = count := by
  have single : ∀ other ∈ List.replicate count char, other.utf8Size = 1 :=
    fun other member => List.eq_of_mem_replicate member ▸ one
  rw [(byteLength_eq_length_iff _).mpr single, List.length_replicate]

/-- Two ways to cut one text: the cut after more bytes is the later one. -/
theorem exists_between {front back before after : List Char}
    (same : front ++ back = before ++ after) (fewer : byteLength front ≤ byteLength before) :
    ∃ between, before = front ++ between ∧ back = between ++ after := by
  rcases List.append_eq_append_iff.mp same with found | ⟨rest, rfl, rfl⟩
  · exact found
  · have empty : rest = [] := by
      by_contra nonempty
      have := byteLength_pos nonempty
      rw [byteLength_append] at fewer
      omega
    exact ⟨[], by simp [empty], by simp [empty]⟩

theorem utf8Size_of_isIndent {char : Char} (indents : isIndent char = true) :
    char.utf8Size = 1 := by
  simp only [isIndent, Bool.or_eq_true, beq_iff_eq] at indents
  rcases indents with rfl | rfl <;> rfl

theorem isBlank_of_isIndent {char : Char} (indents : isIndent char = true) :
    isBlank char = true := by
  simp only [isIndent, Bool.or_eq_true, beq_iff_eq] at indents
  rcases indents with rfl | rfl <;> rfl

theorem exists_indent (text : List Char) : ∃ indent front, text = indent ++ front ∧
    (∀ char ∈ indent, isIndent char = true) ∧ ∀ first ∈ front.head?, isIndent first = false := by
  refine ⟨text.takeWhile isIndent, text.dropWhile isIndent, List.takeWhile_append_dropWhile.symm,
    fun char member => List.mem_takeWhile_imp member, ?_⟩
  intro first found
  have stops := List.head?_dropWhile_not isIndent text
  rw [Option.mem_def.mp found] at stops
  exact stops

theorem exists_trail (text : List Char) : ∃ back trail, text = back ++ trail ∧
    (∀ char ∈ trail, isBlank char = true) ∧ ∀ last ∈ back.getLast?, isBlank last = false := by
  induction text using List.reverseRecOn with
  | nil => exact ⟨[], [], rfl, by simp, by simp⟩
  | append_singleton text char ih =>
      cases blank : isBlank char with
      | false => exact ⟨text ++ [char], [], by simp, by simp, by simpa using blank⟩
      | true =>
          obtain ⟨back, trail, rfl, blanks, closed⟩ := ih
          refine ⟨back, trail ++ [char], by simp, ?_, closed⟩
          simpa [or_imp, forall_and] using ⟨blanks, blank⟩

theorem dropWhile_eq_self {holds : Char → Bool} {text : List Char}
    (stops : ∀ first ∈ text.head?, holds first = false) : text.dropWhile holds = text := by
  cases text with
  | nil => rfl
  | cons first rest => exact List.dropWhile_cons_of_neg (by simp [stops first rfl])

theorem trimBlankEnd_append {text trail : List Char} (blanks : ∀ char ∈ trail, isBlank char = true)
    (closed : ∀ last ∈ text.getLast?, isBlank last = false) :
    trimBlankEnd (text ++ trail) = text := by
  have stops : ∀ first ∈ text.reverse.head?, isBlank first = false := by
    rw [List.head?_reverse]
    exact closed
  rw [trimBlankEnd, List.reverse_append,
    List.dropWhile_append_of_pos fun char member => blanks char (List.mem_reverse.mp member),
    dropWhile_eq_self stops, List.reverse_reverse]

/-! ### A character in its line -/

/-- A character in a text, with what stands around it in its line: the indentation, what is shown
before and after the character, and the end of the line that is not shown. -/
structure Sight where
  before : List Char
  indent : List Char
  front : List Char
  char : Char
  back : List Char
  trail : List Char
  after : List Char

namespace Sight

def shown (sight : Sight) : List Char := sight.front ++ sight.char :: sight.back

def line (sight : Sight) : List Char := sight.indent ++ sight.shown ++ sight.trail

structure Of (sight : Sight) (text : List Char) (offset : Nat) : Prop where
  whole : text = sight.before ++ sight.line ++ sight.after
  bytes : byteLength (sight.before ++ sight.indent ++ sight.front) = offset
  isLine : IsLine sight.before sight.line sight.after
  indented : ∀ char ∈ sight.indent, isIndent char = true
  flush : ∀ first ∈ sight.shown.head?, isIndent first = false
  blanks : ∀ char ∈ sight.trail, isBlank char = true
  closed : ∀ last ∈ sight.shown.getLast?, isBlank last = false

def number (sight : Sight) : List Char := (toString (1 + sight.before.count '\n')).toList

def label (sight : Sight) : List Char := sight.number ++ [' ', '|', ' ']

def numbered (sight : Sight) : List Char := sight.label ++ sight.shown

def margin (sight : Sight) : List Char := List.replicate (sight.number.length + 1) ' ' ++ ['|']

def pointer (sight : Sight) : List Char :=
  sight.margin ++ [' '] ++ List.replicate (byteLength sight.front) '-'

def excerpt (sight : Sight) : List Char :=
  sight.margin ++ ['\n'] ++ sight.numbered ++ ['\n'] ++ sight.pointer ++ ['^', '\n']

end Sight

/-- Only what stands before and after a character that is not blank is taken off. -/
theorem IsLine.exists_sight {before pre post after : List Char} {char : Char}
    (isLine : IsLine before (pre ++ char :: post) after) (inked : isBlank char = false) :
    ∃ sight : Sight,
      sight.Of (before ++ (pre ++ char :: post) ++ after) (byteLength (before ++ pre)) := by
  obtain ⟨indent, front, rfl, indented, flush⟩ := exists_indent pre
  obtain ⟨back, trail, rfl, blanks, closed⟩ := exists_trail post
  have same : indent ++ front ++ char :: (back ++ trail) =
      indent ++ (front ++ char :: back) ++ trail := by simp
  rw [same] at isLine ⊢
  refine ⟨⟨before, indent, front, char, back, trail, after⟩, rfl, by simp,
    isLine, indented, ?_, blanks, ?_⟩
  · intro first found
    cases front with
    | cons head rest => exact flush first found
    | nil =>
        cases Option.some.inj found
        rw [← Bool.not_eq_true]
        intro indents
        cases inked.symm.trans (isBlank_of_isIndent indents)
  · intro last found
    cases back using List.reverseRecOn with
    | nil =>
        have same : char = last := by simpa [Sight.shown] using found
        exact same ▸ inked
    | append_singleton back final =>
        have split : front ++ char :: (back ++ [final]) = front ++ char :: back ++ [final] := by simp
        rw [Sight.shown, split, List.getLast?_concat] at found
        exact closed last (by rwa [List.getLast?_concat])

theorem exists_sight (front back : List Char) {char : Char} (inked : isBlank char = false) :
    ∃ sight : Sight, sight.Of (front ++ char :: back) (byteLength front) := by
  have size := char.utf8Size_pos
  cases found : place? (front ++ char :: back) (byteLength front) with
  | none =>
      have short := place?_eq_none.mp found
      rw [byteLength_append, byteLength_cons] at short
      omega
  | some place =>
      obtain ⟨before, after, whole, bytes, inside, isLine, _⟩ := place?_eq_some.mp found
      rw [List.append_assoc] at whole
      obtain ⟨pre, rfl, rest⟩ := exists_between whole.symm (by omega)
      rw [byteLength_append] at bytes
      obtain ⟨held, split, tail⟩ := exists_between rest.symm (by omega)
      cases held with
      | nil =>
          rw [split, List.append_nil] at inside
          omega
      | cons head post =>
          obtain ⟨rfl, rfl⟩ := List.cons.inj tail
          rw [split] at isLine
          obtain ⟨sight, of⟩ := isLine.exists_sight inked
          exact ⟨sight, by simpa using of⟩

namespace Sight

variable {sight : Sight} {text : List Char} {offset : Nat}

theorem digit_of_number {char : Char} (member : char ∈ sight.number) : char.isDigit = true := by
  rw [number, show toString (1 + sight.before.count '\n') = (1 + sight.before.count '\n').repr from
    rfl, Nat.toList_repr] at member
  exact Nat.isDigit_of_mem_toDigits (by decide) (by decide) member

theorem byteLength_number (sight : Sight) : byteLength sight.number = sight.number.length := by
  rw [byteLength_eq_length_iff]
  intro char member
  have digit := Char.isDigit_iff_toNat.mp (digit_of_number member)
  rw [Char.utf8Size_eq_one_iff, UInt32.le_iff_toNat_le]
  exact digit.2.trans (by decide)

theorem byteLength_pointer (sight : Sight) :
    byteLength sight.pointer = byteLength (sight.label ++ sight.front) := by
  have dash : '-'.utf8Size = 1 := rfl
  have space : ' '.utf8Size = 1 := rfl
  have bar : '|'.utf8Size = 1 := rfl
  simp only [pointer, margin, label, byteLength_append, byteLength_cons, byteLength_nil,
    byteLength_replicate space, byteLength_replicate dash, byteLength_number, space, bar]

theorem length_pointer (sight : Sight) :
    sight.pointer.length = sight.label.length + byteLength sight.front := by
  simp only [pointer, margin, label, List.length_append, List.length_replicate, List.length_cons,
    List.length_nil]

/-- The head of the arrow is under the character exactly if bytes and characters are counted alike
before it. -/
theorem length_pointer_eq_iff (sight : Sight) :
    sight.pointer.length = (sight.label ++ sight.front).length ↔
      ∀ char ∈ sight.front, char.utf8Size = 1 := by
  rw [length_pointer, List.length_append, Nat.add_left_cancel_iff, byteLength_eq_length_iff]

theorem head_not_mem_pointer (sight : Sight) : '^' ∉ sight.pointer := by
  simp [pointer, margin]

theorem newline_not_mem_margin (sight : Sight) : '\n' ∉ sight.margin := by
  simp [margin]

theorem newline_not_mem_pointer (sight : Sight) : '\n' ∉ sight.pointer := by
  simp [pointer, margin]

namespace Of

theorem newline_not_mem_shown (of : sight.Of text offset) : '\n' ∉ sight.shown := by
  intro member
  obtain ⟨content, free, same | ⟨same, _⟩⟩ := of.isLine.ends
  · rcases List.eq_nil_or_concat sight.trail with bare | ⟨trail, last, split⟩
    · -- Nothing is taken off the end, so the newline would be the last that is shown.
      have final : sight.shown.getLast? = some '\n' := by
        have final := congrArg List.getLast? same
        rw [line, bare, List.append_nil] at final
        simpa [shown] using final
      exact absurd (of.closed '\n' final) (by decide)
    · rw [line, split, List.concat_eq_append, ← List.append_assoc] at same
      obtain ⟨rfl, _⟩ := List.append_inj' same rfl
      exact free (by simp [member])
  · exact free (same ▸ by simp [line, member])

theorem newline_not_mem_numbered (of : sight.Of text offset) : '\n' ∉ sight.numbered := by
  have digits : '\n' ∉ sight.number := fun member => absurd (digit_of_number member) (by decide)
  simp [numbered, label, digits, of.newline_not_mem_shown]

theorem place?_eq (of : sight.Of text offset) : place? text offset =
    some ⟨1 + sight.before.count '\n', sight.line, byteLength (sight.indent ++ sight.front)⟩ := by
  have size := sight.char.utf8Size_pos
  refine place?_eq_some.mpr ⟨sight.before, sight.after, of.whole, ?_, ?_, of.isLine, rfl⟩
  · simp only [← of.bytes, byteLength_append, Nat.add_assoc]
  · simp only [line, shown, byteLength_append, byteLength_cons]
    omega

/-- The report of the place is the excerpt, if the arrow can be written. -/
theorem report_eq (of : sight.Of text offset) (narrow : byteLength sight.front + 1 ≤ widestField) :
    Place.report ⟨1 + sight.before.count '\n', sight.line,
      byteLength (sight.indent ++ sight.front)⟩ = .ok sight.excerpt := by
  have unindented : sight.line.dropWhile isIndent = sight.shown ++ sight.trail := by
    have stops : ∀ first ∈ (sight.shown ++ sight.trail).head?, isIndent first = false := by
      have same : (sight.shown ++ sight.trail).head? = sight.shown.head? := by simp [shown]
      rw [same]
      exact of.flush
    rw [line, List.append_assoc, List.dropWhile_append_of_pos of.indented, dropWhile_eq_self stops]
  have removed : sight.line.length - (sight.shown ++ sight.trail).length = sight.indent.length := by
    simp only [line, List.length_append]
    omega
  -- Indentation has one byte a character, so the two counts can be subtracted.
  have columns : byteLength (sight.indent ++ sight.front) - sight.indent.length + 1 =
      byteLength sight.front + 1 := by
    have indent := (byteLength_eq_length_iff sight.indent).mpr
      fun char member => utf8Size_of_isIndent (of.indented char member)
    rw [byteLength_append, indent]
    omega
  have number : (toString (1 + sight.before.count '\n')).toList = sight.number := rfl
  simp only [Place.report, unindented, removed, columns, if_pos narrow, number,
    trimBlankEnd_append of.blanks of.closed]
  simp [excerpt, numbered, label, pointer, margin, padLeft]

end Of

end Sight

end Text

theorem Diagnostic.report_of_sight {diagnostic : Diagnostic} {source : String} {sight : Sight}
    (of : sight.Of source.toList diagnostic.position.offset.toNat)
    (narrow : byteLength sight.front + 1 ≤ widestField) :
    diagnostic.report source = .ok (diagnostic.heading ++ String.ofList sight.excerpt) := by
  rw [report, of.place?_eq]
  dsimp only
  rw [of.report_eq narrow]
  rfl

theorem Diagnostic.report_of_end {diagnostic : Diagnostic} {source : String}
    (ends : source.utf8ByteSize ≤ diagnostic.position.offset.toNat) :
    diagnostic.report source = .ok diagnostic.heading := by
  have outside : place? source.toList diagnostic.position.offset.toNat = none :=
    place?_eq_none.mpr (by rwa [byteLength_toList])
  rw [report, outside]

theorem Position.PointsInto.boundary {position : Position} {text : List Char} {file : String}
    (points : position.PointsInto text file) :
    ∃ front back, text = front ++ back ∧ byteLength front = position.offset.toNat := by
  rcases points.stands with last | ⟨front, char, back, rfl, bytes, _⟩
  · exact ⟨text, [], by simp, last.symm⟩
  · exact ⟨front, char :: back, rfl, bytes⟩

theorem Position.PointsInto.exists_sight {position : Position} {text : List Char} {file : String}
    (points : position.PointsInto text file) (inside : position.offset.toNat < byteLength text) :
    ∃ sight : Sight, sight.Of text position.offset.toNat := by
  rcases points.stands with last | ⟨front, char, back, rfl, bytes, inked⟩
  · omega
  · obtain ⟨sight, of⟩ := Text.exists_sight front back inked
    exact ⟨sight, bytes ▸ of⟩

/-- The head of the arrow stands under the character that a diagnostic is about exactly if every
character before it in the line that is shown has one byte. -/
theorem compile_pointsAtCharacter_iff {source file : String} {indent : Nat}
    {diagnostics : List Diagnostic}
    (rejected : compile source file indent = .error (.fault diagnostics))
    {diagnostic : Diagnostic} (member : diagnostic ∈ diagnostics)
    (inside : diagnostic.position.offset.toNat < source.utf8ByteSize) :
    (source.utf8ByteSize < 2 ^ 32 →
      ∃ sight : Sight, sight.Of source.toList diagnostic.position.offset.toNat) ∧
    ∀ sight : Sight, sight.Of source.toList diagnostic.position.offset.toNat →
      byteLength sight.front + 1 ≤ widestField →
        diagnostic.report source = .ok (diagnostic.heading ++ String.ofList
          (sight.margin ++ ['\n'] ++ sight.numbered ++ ['\n'] ++ sight.pointer ++ ['^', '\n'])) ∧
        '\n' ∉ sight.numbered ∧ '\n' ∉ sight.pointer ∧ '^' ∉ sight.pointer ∧
        (sight.pointer.length = (sight.label ++ sight.front).length ↔
          ∀ char ∈ sight.front, char.utf8Size = 1) := by
  constructor
  · intro short
    exact (compile_pointsInto short rejected diagnostic member).exists_sight
      (by rwa [byteLength_toList])
  · intro sight of narrow
    exact ⟨Diagnostic.report_of_sight of narrow, of.newline_not_mem_numbered,
      sight.newline_not_mem_pointer, sight.head_not_mem_pointer, sight.length_pointer_eq_iff⟩

/-- A comment with a character of two bytes, before a character that starts no token. -/
theorem compile_pointsAtCharacter_comment :
    let source := "/*é*/!"
    let diagnostic : Diagnostic := ⟨.unrecognisedToken "!", ⟨6, "s"⟩⟩
    let sight : Sight := ⟨[], [], "/*é*/".toList, '!', [], [], []⟩
    compile source "s" 2 = .error (.fault [diagnostic]) ∧ sight.Of source.toList 6 ∧
    diagnostic.report source = .ok (diagnostic.heading ++ String.ofList
      (sight.margin ++ ['\n'] ++ sight.numbered ++ ['\n'] ++ sight.pointer ++ ['^', '\n'])) ∧
    sight.pointer.length ≠ (sight.label ++ sight.front).length := by
  intro source diagnostic sight
  have rejected : compile source "s" 2 = .error (.fault [diagnostic]) := by
    rw [compile, checkedSheet, Sheet.ofSource, Token.ofSource, Lexeme.split_eq]
    decide +kernel
  have of : sight.Of source.toList 6 := {
    whole := by decide
    bytes := by decide
    isLine := ⟨Or.inl rfl, source.toList, by decide, Or.inr ⟨by decide, rfl⟩⟩
    indented := by simp [sight]
    flush := by simp [sight, Sight.shown, isIndent]
    blanks := by simp [sight]
    closed := by
      intro last found
      cases Option.some.inj found
      decide }
  obtain ⟨-, shows⟩ := compile_pointsAtCharacter_iff rejected List.mem_cons_self (by decide)
  obtain ⟨written, -, -, -, aligned⟩ := shows sight of (by decide)
  refine ⟨rejected, of, written, fun same => ?_⟩
  exact absurd (aligned.mp same 'é' (by simp [sight])) (by decide)

/-- The arrow has its head one character too far to the right there. -/
theorem compile_pointsPastCharacter :
    let source := "/*é*/!"
    let diagnostic : Diagnostic := ⟨.unrecognisedToken "!", ⟨6, "s"⟩⟩
    let numbered := "1 | /*é*/!"
    let arrow := "  | ------^"
    compile source "s" 2 = .error (.fault [diagnostic]) ∧
    diagnostic.report source =
      .ok ("Error: UnrecognisedToken\n-> s\n  |\n" ++ numbered ++ "\n" ++ arrow ++ "\n") ∧
    numbered.toList.idxOf '!' = 9 ∧ arrow.toList.idxOf '^' = 10 := by
  intro source diagnostic numbered arrow
  have rejected : compile source "s" 2 = .error (.fault [diagnostic]) := by
    rw [compile, checkedSheet, Sheet.ofSource, Token.ofSource, Lexeme.split_eq]
    decide +kernel
  have reported : diagnostic.report source =
      .ok ("Error: UnrecognisedToken\n-> s\n  |\n" ++ numbered ++ "\n" ++ arrow ++ "\n") := by
    decide +kernel
  exact ⟨rejected, reported, by decide, by decide⟩

end TypedStyle
