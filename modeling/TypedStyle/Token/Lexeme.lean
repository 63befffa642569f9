import TypedStyle.Diagnostic
import TypedStyle.Text.Bytes
import TypedStyle.Token.Form

/-!
Reading tokens from text. A text is split from the left into lexemes, none of whose characters is
lost, and the lexemes that make tokens are placed at their byte offsets. A text whose lexemes stop
before its end is rejected at the first character that starts none.
-/

namespace TypedStyle

open Text

structure Lexeme where
  form : Form
  text : List Char
  deriving DecidableEq

namespace Lexeme

def first? (text : List Char) : Option (Lexeme × List Char) :=
  Form.all.findSome? fun form => (form.cut text).map fun (front, back) => (⟨form, front⟩, back)

theorem first?_eq_some {text back : List Char} {lexeme : Lexeme}
    (found : first? text = some (lexeme, back)) :
    lexeme.form ∈ Form.all ∧ lexeme.form.cut text = some (lexeme.text, back) := by
  obtain ⟨form, member, hit⟩ := List.exists_of_findSome?_eq_some found
  obtain ⟨⟨front, rest⟩, fits, parts⟩ := Option.map_eq_some_iff.mp hit
  obtain ⟨rfl, rfl⟩ := Prod.mk.inj parts
  exact ⟨member, fits⟩

theorem first?_append {text back : List Char} {lexeme : Lexeme}
    (found : first? text = some (lexeme, back)) : text = lexeme.text ++ back :=
  Form.exact_cut _ _ _ _ (first?_eq_some found).2

theorem first?_shorter {text back : List Char} {lexeme : Lexeme}
    (found : first? text = some (lexeme, back)) : back.length < text.length := by
  have nonempty := Form.progresses_cut _ _ _ _ (first?_eq_some found).2
  rw [first?_append found, List.length_append]
  have := List.length_pos_iff.mpr nonempty
  omega

/-- The lexemes of a text, and what is left of it where no form fits. -/
def split (text : List Char) : List Lexeme × List Char :=
  match found : first? text with
  | none => ([], text)
  | some (lexeme, back) =>
      have := first?_shorter found
      let (later, left) := split back
      (lexeme :: later, left)
termination_by text.length

theorem split_append (text : List Char) :
    (split text).1.flatMap Lexeme.text ++ (split text).2 = text := by
  fun_induction split text with
  | case1 text nothing => rfl
  | case2 text lexeme back found _ later left same ih =>
      rw [same] at ih
      rw [List.flatMap_cons, List.append_assoc, ih, first?_append found]

/-- The tokens among lexemes of which the first starts at byte `offset`, closed by `eof`. -/
def place (file : String) : Nat → List Lexeme → List Token
  | offset, [] => [Token.eof (Position.ofBytes offset file)]
  | offset, lexeme :: later =>
      let stop := offset + byteLength lexeme.text
      match lexeme.form.kind? with
      | some kind =>
          ⟨kind, String.ofList lexeme.text, Span.ofBytes offset stop file⟩ :: place file stop later
      | none => place file stop later

end Lexeme

def Token.ofSource (source file : String) : Except Diagnostic (List Token) :=
  match Lexeme.split source.toList with
  | (lexemes, []) => .ok (Lexeme.place file 0 lexemes)
  | (lexemes, char :: _) =>
      .error ⟨.unrecognisedToken (String.singleton char),
        Position.ofBytes (byteLength (lexemes.flatMap Lexeme.text)) file⟩

end TypedStyle
