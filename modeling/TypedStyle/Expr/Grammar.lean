import TypedStyle.Token

/-!
The grammar of expressions by binding power. It tells which tokens can start an operand, which can
join two operands, and how tightly each token binds.
-/

namespace TypedStyle

inductive Power where
  | lowest
  | additive
  | multiplicative
  | primary
  deriving DecidableEq

def Power.rank : Power → Nat
  | .lowest => 0
  | .additive => 1
  | .multiplicative => 2
  | .primary => 3

inductive OperandForm where
  | primary
  | grouping
  deriving DecidableEq

structure Grammar where
  operand? : TokenKind → Option OperandForm
  joins : TokenKind → Bool
  power : TokenKind → Power

namespace Grammar

def empty : Grammar := ⟨fun _ => none, fun _ => false, fun _ => .lowest⟩

/-- Lets `kind` start an operand. Such a token binds most tightly, so that it cannot follow an
operand directly. -/
def addOperand (grammar : Grammar) (kind : TokenKind) (form : OperandForm) : Grammar :=
  { grammar with
    operand? := fun other => if other = kind then some form else grammar.operand? other
    power := fun other => if other = kind then .primary else grammar.power other }

def addOperator (grammar : Grammar) (kind : TokenKind) (power : Power) : Grammar :=
  { grammar with
    joins := fun other => if other = kind then true else grammar.joins other
    power := fun other => if other = kind then power else grammar.power other }

def addLanguage (grammar : Grammar) : Grammar :=
  let operators := [(TokenKind.plus, Power.additive), (.dash, .additive), (.star, .multiplicative)]
  let operands :=
    [(TokenKind.pixel, OperandForm.primary), (.percentage, .primary), (.scalar, .primary),
     (.hash, .primary), (.identifier, .primary), (.variableName, .primary),
     (.openParen, .grouping)]
  let joined := operators.foldl (fun grammar (kind, power) => grammar.addOperator kind power) grammar
  operands.foldl (fun grammar (kind, form) => grammar.addOperand kind form) joined

def language : Grammar := empty.addLanguage

end Grammar

end TypedStyle
