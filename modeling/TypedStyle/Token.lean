import TypedStyle.Position

/-!
Tokens: the words of a stylesheet, each with its text and its span. The token `eof` stands at the
end of every stylesheet.
-/

namespace TypedStyle

inductive TokenKind where
  | eof
  | pixel
  | percentage
  | scalar
  | hash
  | classSelector
  | variableName
  | identifier
  | openCurly
  | closeCurly
  | openParen
  | closeParen
  | colon
  | semicolon
  | comma
  | plus
  | dash
  | star
  deriving DecidableEq

def TokenKind.name : TokenKind → String
  | .eof => "EOF"
  | .pixel => "Pixel"
  | .percentage => "Percentage"
  | .scalar => "Scalar"
  | .hash => "Hash"
  | .classSelector => "ClassSelector"
  | .variableName => "Variable"
  | .identifier => "Identifier"
  | .openCurly => "OpenCurly"
  | .closeCurly => "CloseCurly"
  | .openParen => "OpenParen"
  | .closeParen => "CloseParen"
  | .colon => "Colon"
  | .semicolon => "Semicolon"
  | .comma => "Comma"
  | .plus => "Plus"
  | .dash => "Dash"
  | .star => "Star"

structure Token where
  kind : TokenKind
  text : String
  span : Span
  deriving DecidableEq

def Token.eof (position : Position) : Token := ⟨.eof, "EOF", ⟨position, position⟩⟩

def Token.describe (token : Token) : String := token.kind.name ++ " (" ++ token.text ++ ")"

end TypedStyle
