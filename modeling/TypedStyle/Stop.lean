/-!
Ways to stop without a result. Besides the faults of a stylesheet there are breaches: inputs that
an operation is not defined on, and that no stylesheet read from text gives it unless a width
asked for is out of range.
-/

namespace TypedStyle

inductive Breach where
  /-- A class or id selector is to be read from a token without a one-byte sign in front. -/
  | missingSign
  /-- A text is to be cut past its end or inside a character. -/
  | offBoundary
  /-- A field is to be wider than `widestField` columns. -/
  | fieldTooWide
  deriving DecidableEq

def widestField : Nat := 65535

inductive Stop (Reason : Type) where
  | fault (reason : Reason)
  | breach (cause : Breach)
  deriving DecidableEq

end TypedStyle
