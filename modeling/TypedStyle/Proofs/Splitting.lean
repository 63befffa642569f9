import TypedStyle.Proofs.Reading
import TypedStyle.Token.Lexeme

/-!
What splitting a source gives. Every lexeme is cut by its form, so that the tokens are as reading
needs them: one `eof` at the end, and a sign in front of every class and id.
-/

namespace TypedStyle

open Text

theorem Form.signed_of_cutToken {kind : TokenKind} (named : kind = .classSelector ∨ kind = .hash)
    {text front back : List Char} (fits : cutToken kind text = some (front, back)) :
    ∃ sign name, front = sign :: name ∧ sign.utf8Size = 1 := by
  rcases named with rfl | rfl
  · obtain ⟨dot, rest, name, here, _, rfl⟩ := Cut.andThen_eq_some.mp fits
    obtain ⟨rfl, _⟩ := Cut.exactly_eq_some here
    exact ⟨'.', name, rfl, rfl⟩
  · obtain ⟨number, rest, name, here, _, rfl⟩ := Cut.andThen_eq_some.mp fits
    obtain ⟨rfl, _⟩ := Cut.exactly_eq_some here
    exact ⟨'#', name, rfl, rfl⟩

namespace Lexeme

theorem split_of_none {text : List Char} (nothing : first? text = none) :
    split text = ([], text) := by
  rw [split]
  split
  · rfl
  · rename_i found
    cases nothing.symm.trans found

theorem split_of_some {text back : List Char} {lexeme : Lexeme}
    (found : first? text = some (lexeme, back)) :
    split text = (lexeme :: (split back).1, (split back).2) := by
  rw [split]
  split
  · rename_i nothing
    cases nothing.symm.trans found
  · rename_i other
    cases found.symm.trans other
    rfl

/-- Splitting as a recursion on a bound, which evaluates. -/
def splitWithin : List Char → List Char → List Lexeme × List Char
  | [], text => ([], text)
  | _ :: bound, text =>
      match first? text with
      | none => ([], text)
      | some (lexeme, back) =>
          let (later, left) := splitWithin bound back
          (lexeme :: later, left)

theorem split_eq_splitWithin {bound text : List Char} (enough : text.length ≤ bound.length) :
    split text = splitWithin bound text := by
  induction bound generalizing text with
  | nil =>
      cases List.length_eq_zero_iff.mp (Nat.le_zero.mp enough)
      exact split_of_none (by decide)
  | cons _ bound ih =>
      rw [splitWithin]
      cases found : first? text with
      | none => exact split_of_none found
      | some parts =>
          obtain ⟨lexeme, back⟩ := parts
          have shorter := first?_shorter found
          rw [split_of_some found, ih (by simp at enough; omega)]

theorem split_eq (text : List Char) : split text = splitWithin text text :=
  split_eq_splitWithin (Nat.le_refl _)

theorem cut_of_mem_split {text : List Char} {lexeme : Lexeme} (member : lexeme ∈ (split text).1) :
    ∃ rest back, lexeme.form.cut rest = some (lexeme.text, back) := by
  fun_induction split text with
  | case1 text nothing => cases member
  | case2 text first back found _ later left same ih =>
      rcases List.mem_cons.mp member with rfl | member
      · exact ⟨text, back, (first?_eq_some found).2⟩
      · rw [same] at ih
        exact ih member

def Makes (lexeme : Lexeme) (token : Token) : Prop :=
  lexeme.form = .token token.kind ∧ token.text = String.ofList lexeme.text

theorem place_eq (file : String) (offset : Nat) (lexemes : List Lexeme) :
    ∃ tokens last, place file offset lexemes = tokens ++ [last] ∧ last.kind = .eof ∧
      ∀ token ∈ tokens, ∃ maker ∈ lexemes, maker.Makes token := by
  induction lexemes generalizing offset with
  | nil => exact ⟨[], _, rfl, rfl, by simp⟩
  | cons lexeme later ih =>
      obtain ⟨tokens, last, placed, ends, made⟩ := ih (offset + byteLength lexeme.text)
      have kept : ∀ token ∈ tokens, ∃ maker ∈ lexeme :: later, maker.Makes token := by
        intro token member
        obtain ⟨maker, present, makes⟩ := made token member
        exact ⟨maker, List.mem_cons_of_mem lexeme present, makes⟩
      cases form : lexeme.form with
      | token kind =>
          let stop := offset + byteLength lexeme.text
          let made : Token := ⟨kind, String.ofList lexeme.text, Span.ofBytes offset stop file⟩
          refine ⟨made :: tokens, last, ?_, ends, ?_⟩
          · simp only [place, form, Form.kind?, placed, List.cons_append, made, stop]
          · intro token member
            rcases List.mem_cons.mp member with rfl | member
            · exact ⟨lexeme, List.mem_cons_self, form, rfl⟩
            · exact kept token member
      | blank | lineComment | blockComment =>
          refine ⟨tokens, last, ?_, ends, kept⟩
          simp only [place, form, Form.kind?, placed]

theorem Makes.signed {lexeme : Lexeme} {token : Token} (makes : lexeme.Makes token)
    {rest back : List Char} (fits : lexeme.form.cut rest = some (lexeme.text, back)) :
    token.kind ≠ .eof ∧ token.Signed := by
  rw [makes.1] at fits
  constructor
  · intro ends
    rw [ends] at fits
    cases fits
  · intro named
    obtain ⟨sign, name, text, narrow⟩ := Form.signed_of_cutToken named fits
    exact ⟨sign, name, by rw [makes.2, text, String.toList_ofList], narrow⟩

end Lexeme

/-- The tokens of a source are closed by its only `eof`, or its first character that starts no
lexeme is reported. -/
theorem Token.ofSource_cases (source file : String) :
    (∃ tokens last, Token.ofSource source file = .ok (tokens ++ [last]) ∧ last.kind = .eof ∧
      ∀ token ∈ tokens, token.kind ≠ .eof ∧ token.Signed) ∨
    ∃ diagnostic, Token.ofSource source file = .error diagnostic ∧
      diagnostic.fault.stage = .splitting := by
  unfold Token.ofSource
  cases parts : Lexeme.split source.toList with
  | mk lexemes left =>
      cases left with
      | nil =>
          obtain ⟨tokens, last, placed, ends, made⟩ := Lexeme.place_eq file 0 lexemes
          left
          refine ⟨tokens, last, congrArg Except.ok placed, ends, ?_⟩
          intro token member
          obtain ⟨lexeme, present, makes⟩ := made token member
          have present : lexeme ∈ (Lexeme.split source.toList).1 := by rw [parts]; exact present
          obtain ⟨rest, back, fits⟩ := Lexeme.cut_of_mem_split present
          exact makes.signed fits
      | cons char left =>
          right
          exact ⟨_, rfl, rfl⟩

end TypedStyle
