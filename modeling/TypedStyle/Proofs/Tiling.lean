import TypedStyle.Proofs.Patterns
import TypedStyle.Proofs.Splitting

/-!
How the tokens of a source lie in it. Lexemes are placed one after another from the first byte on,
so that the tokens and what is skipped between them make up the source. As long as its length fits
32 bits, the spans of the tokens are the bytes that they stand at.
-/

namespace TypedStyle

open Text
open scoped Computability

/-- From byte `start` up to `stop`, both of them character boundaries, the text reads `part`. -/
def Text.Slice (text : List Char) (start stop : Nat) (part : List Char) : Prop :=
  ∃ front back, text = front ++ part ++ back ∧ byteLength front = start ∧
    byteLength (front ++ part) = stop

theorem Text.Slice.le {text part : List Char} {start stop : Nat}
    (slice : Slice text start stop part) : start ≤ stop := by
  obtain ⟨front, back, _, rfl, rfl⟩ := slice
  rw [byteLength_append]
  omega

/-- A run of blanks, a line comment without the end of its line, or a block comment up to its first
`*/`. -/
def Form.skipped : Language Char :=
  Form.blank.pattern + Form.lineComment.pattern + Form.blockComment.pattern

theorem Form.mem_skipped {form : Form} (unmade : form.kind? = none) {text : List Char}
    (written : text ∈ form.pattern) : text ∈ skipped := by
  cases form with
  | blank => exact Or.inl (Or.inl written)
  | lineComment => exact Or.inl (Or.inr written)
  | blockComment => exact Or.inr written
  | token kind => cases unmade

theorem Position.ofBytes_offset {bytes : Nat} (fits : bytes < 2 ^ 32) (file : String) :
    (ofBytes bytes file).offset.toNat = bytes :=
  UInt32.toNat_ofNat_of_lt' fits

namespace Token

def begins (token : Token) : Nat := token.span.start.offset.toNat

def ends (token : Token) : Nat := token.span.stop.offset.toNat

theorem begins_ends_ofBytes (kind : TokenKind) (text : String) {start stop : Nat}
    (forward : start ≤ stop) (fits : stop < 2 ^ 32) (file : String) :
    begins ⟨kind, text, .ofBytes start stop file⟩ = start ∧
      ends ⟨kind, text, .ofBytes start stop file⟩ = stop :=
  ⟨Position.ofBytes_offset (by omega) file, Position.ofBytes_offset fits file⟩

/-- After the text `front`, the tokens with what is skipped before, between and after them make up
the text. -/
inductive Tiles (file : String) : List Char → List Char → List Token → Prop where
  | last {front gap : List Char} (skip : gap ∈ Form.skipped∗) :
      Tiles file front gap [.eof (.ofBytes (byteLength (front ++ gap)) file)]
  | next {front gap text rest : List Char} {kind : TokenKind} {later : List Token}
      (skip : gap ∈ Form.skipped∗) (written : text ∈ kind.pattern)
      (tiles : Tiles file (front ++ gap ++ text) rest later) :
      Tiles file front (gap ++ text ++ rest)
        (⟨kind, String.ofList text, .ofBytes (byteLength (front ++ gap))
          (byteLength (front ++ gap ++ text)) file⟩ :: later)

namespace Tiles

variable {file : String} {front text : List Char} {tokens : List Token}

theorem skip {piece : List Char} (unmade : piece ∈ Form.skipped)
    (tiles : Tiles file (front ++ piece) text tokens) :
    Tiles file front (piece ++ text) tokens := by
  cases tiles with
  | @last _ gap skip =>
      rw [List.append_assoc front]
      exact .last (Pattern.append_mem_kstar unmade skip)
  | @next _ gap text rest kind later skip written tiles =>
      rw [List.append_assoc front] at tiles ⊢
      rw [← List.append_assoc piece, ← List.append_assoc piece]
      exact .next (Pattern.append_mem_kstar unmade skip) written tiles

theorem place (file : String) (front : List Char) {lexemes : List Lexeme}
    (written : ∀ lexeme ∈ lexemes, lexeme.text ∈ lexeme.form.pattern) :
    Tiles file front (lexemes.flatMap Lexeme.text)
      (Lexeme.place file (byteLength front) lexemes) := by
  induction lexemes generalizing front with
  | nil =>
      have tiles : Tiles file front [] _ := .last (Language.nil_mem_kstar Form.skipped)
      rw [List.append_nil] at tiles
      exact tiles
  | cons lexeme later ih =>
      obtain ⟨here, there⟩ := List.forall_mem_cons.mp written
      have tiles := ih (front ++ lexeme.text) there
      rw [List.flatMap_cons, Lexeme.place, ← byteLength_append]
      cases form : lexeme.form with
      | token kind =>
          rw [form] at here
          -- What is skipped in front of the token is added later, lexeme by lexeme.
          have next := Tiles.next (Language.nil_mem_kstar Form.skipped) here (by simpa using tiles)
          simpa [Form.kind?] using next
      | blank | lineComment | blockComment =>
          rw [form] at here
          exact skip (Form.mem_skipped rfl here) tiles

theorem of_source {source : String} (split : Token.ofSource source file = .ok tokens) :
    Tiles file [] source.toList tokens := by
  unfold Token.ofSource at split
  have whole := Lexeme.split_append source.toList
  have written : ∀ lexeme ∈ (Lexeme.split source.toList).1, lexeme.text ∈ lexeme.form.pattern := by
    intro lexeme member
    obtain ⟨rest, back, fits⟩ := Lexeme.cut_of_mem_split member
    exact Form.within_cut lexeme.form rest lexeme.text back fits
  cases parts : Lexeme.split source.toList with
  | mk lexemes left =>
      rw [parts] at split whole written
      cases left with
      | cons char left => cases split
      | nil =>
          cases split
          rw [List.append_nil] at whole
          exact whole ▸ place file [] written

/-- The tokens are words closed by an `eof`, and the text is made up of the words, with what is
skipped in front of each of them and after the last. -/
theorem exists_words (tiles : Tiles file front text tokens) :
    ∃ (words : List Token) (last : Token), tokens = words ++ [last] ∧
      last = .eof (.ofBytes (byteLength (front ++ text)) file) ∧
      (∀ word ∈ words, word.kind ≠ .eof ∧ word.text.toList ∈ word.kind.pattern) ∧
      ∃ gaps final, gaps.length = words.length ∧ (∀ gap ∈ final :: gaps, gap ∈ Form.skipped∗) ∧
        text = (List.zipWith (fun gap word => gap ++ word.text.toList) gaps words).flatten ++
          final := by
  induction tiles with
  | @last front gap skip =>
      exact ⟨[], _, rfl, rfl, by simp, [], gap, rfl, by simpa using skip, rfl⟩
  | @next front gap text rest kind later skip written tiles ih =>
      obtain ⟨words, last, rfl, ends, every, gaps, final, length, skips, rfl⟩ := ih
      refine ⟨_ :: words, last, rfl, by simpa using ends, ?_, gap :: gaps, final, by simp [length],
        ?_, by simp⟩
      · rw [List.forall_mem_cons]
        refine ⟨⟨?_, by simpa using written⟩, every⟩
        rintro rfl
        exact written.elim
      · simp only [List.forall_mem_cons] at skips ⊢
        exact ⟨skips.1, skip, skips.2⟩

end Tiles

structure Laid (text : List Char) (offset : Nat) (tokens : List Token) : Prop where
  after : ∀ token ∈ tokens, offset ≤ token.begins
  covers : ∀ token ∈ tokens, token.kind ≠ .eof →
    token.begins < token.ends ∧ Slice text token.begins token.ends token.text.toList
  ordered : tokens.Pairwise fun earlier later => earlier.ends ≤ later.begins
  divided : ∀ front token back, tokens = front ++ token :: back →
    ∃ gap ∈ Form.skipped∗,
      Slice text (front.getLast?.elim offset Token.ends) token.begins gap

namespace Laid

variable {text gap : List Char} {offset : Nat} {token : Token} {later : List Token}

theorem nil (text : List Char) (offset : Nat) : Laid text offset [] where
  after _ absent := by cases absent
  covers _ absent := by cases absent
  ordered := .nil
  divided front token back absent := by cases front <;> cases absent

theorem cons {start stop : Nat} (begins : token.begins = start) (ends : token.ends = stop)
    (skip : gap ∈ Form.skipped∗) (before : Slice text offset start gap) (forward : start ≤ stop)
    (covers : token.kind ≠ .eof → start < stop ∧ Slice text start stop token.text.toList)
    (laid : Laid text stop later) : Laid text offset (token :: later) where
  after := by
    rw [List.forall_mem_cons, begins]
    refine ⟨before.le, ?_⟩
    intro other member
    exact before.le.trans (forward.trans (laid.after other member))
  covers := by
    rw [List.forall_mem_cons, begins, ends]
    exact ⟨covers, laid.covers⟩
  ordered := by
    rw [List.pairwise_cons, ends]
    exact ⟨laid.after, laid.ordered⟩
  divided := by
    intro front other back same
    cases front with
    | nil =>
        obtain ⟨rfl, rfl⟩ := List.cons.inj same
        exact ⟨gap, skip, begins ▸ before⟩
    | cons first front =>
        obtain ⟨rfl, rest⟩ := List.cons.inj same
        have divided := laid.divided front other back rest
        -- In front of the first token of the rest, it is this token that ends.
        cases front with
        | nil =>
            rw [← ends] at divided
            exact divided
        | cons second front =>
            rw [List.getLast?_cons_cons]
            exact divided

end Laid

theorem Tiles.laid {file : String} {front rest : List Char} {tokens : List Token}
    (tiles : Tiles file front rest tokens) (fits : byteLength (front ++ rest) < 2 ^ 32) :
    Laid (front ++ rest) (byteLength front) tokens := by
  induction tiles with
  | @last front gap skip =>
      obtain ⟨begins, ends⟩ := begins_ends_ofBytes .eof "EOF" (Nat.le_refl _) fits file
      have before : Slice (front ++ gap) _ _ gap := ⟨front, [], by simp, rfl, rfl⟩
      exact Laid.cons begins ends skip before (Nat.le_refl _) (absurd rfl) (.nil _ _)
  | @next front gap text rest kind later skip written tiles ih =>
      have whole : front ++ gap ++ text ++ rest = front ++ (gap ++ text ++ rest) := by simp
      rw [whole] at ih
      have stop : byteLength (front ++ gap ++ text) < 2 ^ 32 := by
        rw [← whole, byteLength_append] at fits
        omega
      have less : byteLength (front ++ gap) < byteLength (front ++ gap ++ text) := by
        have positive := byteLength_pos (Form.ne_nil_of_mem_pattern written)
        rw [byteLength_append (front ++ gap)]
        omega
      obtain ⟨begins, ends⟩ := begins_ends_ofBytes kind (String.ofList text) less.le stop file
      have before : Slice (front ++ (gap ++ text ++ rest)) _ _ gap :=
        ⟨front, text ++ rest, by simp, rfl, rfl⟩
      have covers : Slice (front ++ (gap ++ text ++ rest)) _ _ (String.ofList text).toList :=
        ⟨front ++ gap, rest, by simp, rfl, by rw [String.toList_ofList]⟩
      exact Laid.cons begins ends skip before less.le (fun _ => ⟨less, covers⟩) (ih fits)

/-- The tokens of a source tile it. They are words closed by the only `eof`, which stands at the
end. Every word covers the bytes of its span and is written as its kind asks, the words come in
order and do not overlap, and nothing but blanks and comments stands before, between and after
them, so that all of it put together is the source. -/
theorem ofSource_tiles {source file : String} (short : source.utf8ByteSize < 2 ^ 32)
    {tokens : List Token} (split : Token.ofSource source file = .ok tokens) :
    ∃ (words : List Token) (last : Token), tokens = words ++ [last] ∧
      (last.kind = .eof ∧ last.begins = source.utf8ByteSize ∧ last.ends = source.utf8ByteSize) ∧
      (∀ word ∈ words, word.kind ≠ .eof ∧ word.begins < word.ends ∧
        Slice source.toList word.begins word.ends word.text.toList ∧
        word.text.toList ∈ word.kind.pattern) ∧
      tokens.Pairwise (fun earlier later => earlier.ends ≤ later.begins) ∧
      (∀ front token back, tokens = front ++ token :: back → ∃ gap ∈ Form.skipped∗,
        Slice source.toList (front.getLast?.elim 0 Token.ends) token.begins gap) ∧
      ∃ gaps final, gaps.length = words.length ∧ (∀ gap ∈ final :: gaps, gap ∈ Form.skipped∗) ∧
        source.toList =
          (List.zipWith (fun gap word => gap ++ word.text.toList) gaps words).flatten ++ final := by
  have tiles : Tiles file [] source.toList tokens := Tiles.of_source split
  have laid := tiles.laid (by simpa using short)
  obtain ⟨words, last, rfl, rfl, every, gaps⟩ := tiles.exists_words
  obtain ⟨begins, ends⟩ := begins_ends_ofBytes .eof "EOF" (Nat.le_refl _) short file
  rw [List.nil_append, byteLength_toList] at laid ⊢
  refine ⟨words, _, rfl, ⟨rfl, begins, ends⟩, ?_, laid.ordered, laid.divided, gaps⟩
  · intro word member
    obtain ⟨inside, written⟩ := every word member
    obtain ⟨less, slice⟩ := laid.covers word (List.mem_append_left _ member) inside
    exact ⟨inside, less, slice, written⟩

/-- The bytes before the first token are the comment, in which one character has two bytes. -/
theorem ofSource_tiles_commentedSum :
    Token.ofSource "/*é*/1+ @a" "s" = .ok
      [⟨.scalar, "1", .ofBytes 6 7 "s"⟩, ⟨.plus, "+", .ofBytes 7 8 "s"⟩,
       ⟨.variableName, "@a", .ofBytes 9 11 "s"⟩, .eof (.ofBytes 11 "s")] ∧
    ∃ gap ∈ Form.skipped∗, Slice "/*é*/1+ @a".toList 0 6 gap := by
  have comment : Lexeme.first? "/*é*/1+ @a".toList =
      some (⟨.blockComment, "/*é*/".toList⟩, "1+ @a".toList) := by decide
  have number : Lexeme.first? "1+ @a".toList = some (⟨.token .scalar, ['1']⟩, "+ @a".toList) := by
    decide
  have plus : Lexeme.first? "+ @a".toList = some (⟨.token .plus, ['+']⟩, " @a".toList) := by decide
  have blank : Lexeme.first? " @a".toList = some (⟨.blank, [' ']⟩, "@a".toList) := by decide
  have name : Lexeme.first? "@a".toList = some (⟨.token .variableName, ['@', 'a']⟩, []) := by decide
  have nothing : Lexeme.first? [] = none := by decide
  have split : Token.ofSource "/*é*/1+ @a" "s" = .ok
      [⟨.scalar, "1", .ofBytes 6 7 "s"⟩, ⟨.plus, "+", .ofBytes 7 8 "s"⟩,
       ⟨.variableName, "@a", .ofBytes 9 11 "s"⟩, .eof (.ofBytes 11 "s")] := by
    rw [Token.ofSource, Lexeme.split_of_some comment, Lexeme.split_of_some number,
      Lexeme.split_of_some plus, Lexeme.split_of_some blank, Lexeme.split_of_some name,
      Lexeme.split_of_none nothing]
    rfl
  obtain ⟨_, _, _, _, _, _, divided, _⟩ := ofSource_tiles (by decide) split
  exact ⟨split, divided [] _ _ rfl⟩

end Token

end TypedStyle
