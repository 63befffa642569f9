import TypedStyle.Expr.Reading
import TypedStyle.Sheet

/-!
Reading stylesheets. At the level of the sheet stand assignments and rules. In a rule, a name
followed by a colon starts a declaration, and whatever is no assignment either starts a rule.
-/

namespace TypedStyle

def Token.signedName (token : Token) : Except (Stop Diagnostic) String :=
  match token.text.toList with
  | sign :: name =>
      if sign.utf8Size = 1 then .ok (String.ofList name) else .error (.breach .missingSign)
  | [] => .error (.breach .missingSign)

def Token.selector (token : Token) : Except (Stop Diagnostic) Selector :=
  match token.kind with
  | .identifier => .ok (.tag token.text)
  | .classSelector => token.signedName.map .byClass
  | .hash => token.signedName.map .byId
  | _ => .error (.fault ⟨.unexpectedToken token.text, token.span.start⟩)

namespace Read

def selector : Read Selector := do
  match (← current).selector with
  | .ok selector =>
      let _ ← advance
      return selector
  | .error stop => throw stop

def assignment (grammar : Grammar) : Read Assignment := do
  let name ← expect .variableName
  let _ ← expect .colon
  let value ← expr grammar .lowest
  let _ ← expect .semicolon
  return { name := name.text, value, span := (← get).spanFrom name.span.start }

def declaration (grammar : Grammar) : Read Declaration := do
  let name ← expect .identifier
  match Property.ofName? name.text with
  | none => reject ⟨.unknownProperty name.text, name.span.start⟩
  | some property =>
      let _ ← expect .colon
      let value ← expr grammar .lowest
      let _ ← expect .semicolon
      return { property, value, span := (← get).spanFrom name.span.start, diagnostic := none }

/-! ### Rules and bodies

Every selector, every item of a body and everything in front of an inner body passes a token, so
that the tokens left bound the number of steps. -/

def selectorsWithin : List Token → Read (List Selector)
  | [] => unexpected
  | _ :: bound => do
      let first ← selector
      if (← current).kind = .comma then
        let _ ← advance
        return first :: (← selectorsWithin bound)
      else return [first]

def selectors : Read (List Selector) := fun cursor => selectorsWithin cursor.left cursor

def ruleOf (inner : Read Body) : Read Item := do
  let start := (← get).position
  let selectors ← selectors
  let _ ← expect .openCurly
  let body ← inner
  let _ ← expect .closeCurly
  return .rule selectors body ((← get).spanFrom start)

def bodyItemOf (grammar : Grammar) (inner : Read Body) : Read Item := do
  let cursor ← get
  match cursor.current.kind with
  | .variableName => return .assignment (← assignment grammar)
  | .identifier =>
      if cursor.following = .colon then return .declaration (← declaration grammar)
      else ruleOf inner
  | _ => ruleOf inner

def bodyWithin (grammar : Grammar) : List Token → Read Body
  | [] => unexpected
  | _ :: bound => do
      match (← current).kind with
      | .closeCurly | .eof => return .empty
      | _ =>
          let item ← bodyItemOf grammar (bodyWithin grammar bound)
          return .cons item (← bodyWithin grammar bound)

def body (grammar : Grammar) : Read Body := fun cursor => bodyWithin grammar cursor.left cursor

def rule (grammar : Grammar) : Read Item := ruleOf (body grammar)

def bodyItem (grammar : Grammar) : Read Item := bodyItemOf grammar (body grammar)

def sheetItem (grammar : Grammar) : Read Item := do
  match (← current).kind with
  | .variableName => return .assignment (← assignment grammar)
  | _ => rule grammar

def sheetWithin (grammar : Grammar) : List Token → Read Body
  | [] => unexpected
  | _ :: bound => do
      if (← get).atEnd then return .empty
      else
        let item ← sheetItem grammar
        return .cons item (← sheetWithin grammar bound)

def sheetBody (grammar : Grammar) : Read Body := fun cursor =>
  sheetWithin grammar cursor.left cursor

end Read

/-- The stylesheet that tokens of `file` make. It spans from the start of the file to the first
`eof`. -/
def Sheet.ofTokens (tokens : List Token) (file : String) : Except (Stop Diagnostic) Sheet :=
  match Read.sheetBody .language (Cursor.ofTokens tokens file) with
  | .ok body cursor => .ok ⟨body, ⟨⟨0, file⟩, cursor.position⟩⟩
  | .error stop _ => .error stop

end TypedStyle
