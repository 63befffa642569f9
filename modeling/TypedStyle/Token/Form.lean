import TypedStyle.Text.Blank
import TypedStyle.Text.Cut
import TypedStyle.Token

/-!
The text forms of the language. A form is skipped, if it is blank space or a comment, or makes a
token. At each place of a text the forms are tried in the order of `Form.all`, and the first that
fits wins.
-/

namespace TypedStyle

open Text

inductive Form where
  | blank
  | lineComment
  | blockComment
  | token (kind : TokenKind)
  deriving DecidableEq

namespace Form

def kind? : Form → Option TokenKind
  | .blank | .lineComment | .blockComment => none
  | .token kind => some kind

def all : List Form :=
  [.blank, .lineComment, .blockComment, .token .pixel, .token .percentage, .token .scalar,
   .token .hash, .token .classSelector, .token .variableName, .token .identifier,
   .token .openCurly, .token .closeCurly, .token .openParen, .token .closeParen, .token .colon,
   .token .semicolon, .token .comma, .token .plus, .token .dash, .token .star]

def isLetter (char : Char) : Bool := char.isAlpha || char == '_'

def isNameChar (char : Char) : Bool := char.isAlphanum || char == '_' || char == '-'

def isClassLetter (char : Char) : Bool := isLetter char || char == '-'

def digits : Cut := Cut.many1 Char.isDigit

def identifier : Cut := (Cut.one isLetter).andThen (Cut.run isNameChar)

def cutToken : TokenKind → Cut
  | .eof => fun _ => none
  | .pixel => digits.andThen (Cut.exactly ['p', 'x'])
  | .percentage => digits.andThen (Cut.exactly ['%'])
  | .scalar => digits
  | .hash => (Cut.exactly ['#']).andThen (Cut.many1 isNameChar)
  | .classSelector =>
      (Cut.exactly ['.']).andThen ((Cut.one isClassLetter).andThen (Cut.run isNameChar))
  | .variableName => (Cut.exactly ['@']).andThen identifier
  | .identifier => identifier
  | .openCurly => Cut.exactly ['\x7b']
  | .closeCurly => Cut.exactly ['\x7d']
  | .openParen => Cut.exactly ['(']
  | .closeParen => Cut.exactly [')']
  | .colon => Cut.exactly [':']
  | .semicolon => Cut.exactly [';']
  | .comma => Cut.exactly [',']
  | .plus => Cut.exactly ['+']
  | .dash => Cut.exactly ['-']
  | .star => Cut.exactly ['*']

def cut : Form → Cut
  | .blank => Cut.many1 isBlank
  | .lineComment => (Cut.exactly ['/', '/']).andThen (Cut.run (· != '\n'))
  | .blockComment => (Cut.exactly ['/', '*']).andThen (Cut.closing [])
  | .token kind => cutToken kind

theorem exact_cut (form : Form) : Cut.Exact form.cut := by
  have word : Cut.Exact identifier := (Cut.exact_one _).andThen (Cut.exact_run _)
  have number : Cut.Exact digits := Cut.exact_many1 _
  cases form with
  | blank => exact Cut.exact_many1 _
  | lineComment => exact (Cut.exact_exactly _).andThen (Cut.exact_run _)
  | blockComment => exact (Cut.exact_exactly _).andThen Cut.exact_closing
  | token kind =>
      cases kind with
      | eof => exact fun _ _ _ done => nomatch done
      | pixel => exact number.andThen (Cut.exact_exactly _)
      | percentage => exact number.andThen (Cut.exact_exactly _)
      | scalar => exact number
      | hash => exact (Cut.exact_exactly _).andThen (Cut.exact_many1 _)
      | classSelector =>
          exact (Cut.exact_exactly _).andThen ((Cut.exact_one _).andThen (Cut.exact_run _))
      | variableName => exact (Cut.exact_exactly _).andThen word
      | identifier => exact word
      | _ => exact Cut.exact_exactly _

theorem progresses_cut (form : Form) : Cut.Progresses form.cut := by
  have word : Cut.Progresses identifier := (Cut.progresses_one _).andThen _
  have number : Cut.Progresses digits := Cut.progresses_many1 _
  cases form with
  | blank => exact Cut.progresses_many1 _
  | lineComment => exact (Cut.progresses_exactly _ _).andThen _
  | blockComment => exact (Cut.progresses_exactly _ _).andThen _
  | token kind =>
      cases kind with
      | eof => exact fun _ _ _ done => nomatch done
      | pixel => exact number.andThen _
      | percentage => exact number.andThen _
      | scalar => exact number
      | hash => exact (Cut.progresses_exactly _ _).andThen _
      | classSelector => exact (Cut.progresses_exactly _ _).andThen _
      | variableName => exact (Cut.progresses_exactly _ _).andThen _
      | identifier => exact word
      | _ => exact Cut.progresses_exactly _ _

end Form

end TypedStyle
