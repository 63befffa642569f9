import TypedStyle.Diagnostic
import TypedStyle.Stop
import TypedStyle.Token

/-!
A cursor over tokens, and reading with it. There is always a current token: the last token is an
`eof`, which is added if it is missing, and the cursor never moves past it. A read leaves a cursor
also when it fails.
-/

namespace TypedStyle

structure Cursor where
  /-- The tokens before the current one, the nearest first. -/
  passed : List Token
  current : Token
  ahead : List Token
  deriving DecidableEq

namespace Cursor

def ofTokens (tokens : List Token) (file : String) : Cursor :=
  match tokens with
  | [] => ⟨[], Token.eof ⟨0, file⟩, []⟩
  | first :: later =>
      let last := later.getLastD first
      ⟨[], first, if last.kind = .eof then later else later ++ [Token.eof last.span.stop]⟩

def left (cursor : Cursor) : List Token := cursor.current :: cursor.ahead

def advance (cursor : Cursor) : Cursor :=
  match cursor.ahead with
  | [] => cursor
  | next :: ahead => ⟨cursor.current :: cursor.passed, next, ahead⟩

/-- The token passed last, or the current one at the start. -/
def previous (cursor : Cursor) : Token := cursor.passed.headD cursor.current

def position (cursor : Cursor) : Position := cursor.current.span.start

def following (cursor : Cursor) : TokenKind := cursor.ahead.head?.elim .eof Token.kind

/-- The kind of the token `distance` places after the current one. Places are 64-bit words counted
from the first token, so a distance close to 2^64 leads back; a place without a token is `eof`. -/
def peek (cursor : Cursor) (distance : UInt64) : TokenKind :=
  let place := UInt64.ofNat cursor.passed.length + distance
  (cursor.passed.reverse ++ cursor.left)[place.toNat]?.elim .eof Token.kind

def atEnd (cursor : Cursor) : Bool := cursor.current.kind == .eof

def spanFrom (cursor : Cursor) (start : Position) : Span := ⟨start, cursor.previous.span.stop⟩

def unexpected (cursor : Cursor) : Diagnostic :=
  ⟨.unexpectedToken cursor.current.text, cursor.position⟩

theorem peek_eq (cursor : Cursor) (distance : UInt64)
    (fits : cursor.passed.length + distance.toNat < UInt64.size) :
    cursor.peek distance = cursor.left[distance.toNat]?.elim .eof Token.kind := by
  have place : (UInt64.ofNat cursor.passed.length + distance).toNat =
      cursor.passed.length + distance.toNat := by
    simp only [UInt64.toNat_add, UInt64.toNat_ofNat']
    simp only [UInt64.size] at fits
    omega
  simp [peek, place, List.getElem?_append_right]

theorem peek_one (cursor : Cursor) (fits : cursor.passed.length + 1 < UInt64.size) :
    cursor.peek 1 = cursor.following := by
  rw [peek_eq cursor 1 fits]
  cases ahead : cursor.ahead <;> simp [left, following, ahead]

end Cursor

abbrev Read := EStateM (Stop Diagnostic) Cursor

namespace Read

variable {Result : Type}

def reject (diagnostic : Diagnostic) : Read Result := throw (.fault diagnostic)

def unexpected : Read Result := do reject (← get).unexpected

def current : Read Token := return (← get).current

def advance : Read Token := do
  let token ← current
  modify Cursor.advance
  return token

def expectOr (kind : TokenKind) (otherwise : Diagnostic) : Read Token := do
  if (← current).kind = kind then advance else reject otherwise

def expect (kind : TokenKind) : Read Token := do expectOr kind (← get).unexpected

variable {Next : Type}

theorem bind_eq (first : Read Result) (next : Result → Read Next) (cursor : Cursor) :
    (first >>= next) cursor =
      match first cursor with
      | .ok result cursor => next result cursor
      | .error stop cursor => .error stop cursor := by
  change EStateM.bind first next cursor = _
  unfold EStateM.bind
  cases first cursor <;> rfl

theorem current_eq (cursor : Cursor) : current cursor = .ok cursor.current cursor := rfl

theorem advance_eq (cursor : Cursor) : advance cursor = .ok cursor.current cursor.advance := rfl

theorem expect_eq (kind : TokenKind) (cursor : Cursor) :
    expect kind cursor =
      if cursor.current.kind = kind then .ok cursor.current cursor.advance
      else .error (.fault cursor.unexpected) cursor := by
  change (if cursor.current.kind = kind then advance else reject cursor.unexpected : Read Token)
    cursor = _
  split <;> rfl

end Read

end TypedStyle
