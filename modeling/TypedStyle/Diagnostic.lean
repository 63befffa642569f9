import TypedStyle.Fault
import TypedStyle.Position

/-!
A diagnostic is a fault at a position.
-/

namespace TypedStyle

structure Diagnostic where
  fault : Fault
  position : Position
  deriving DecidableEq

def Diagnostic.summary (diagnostic : Diagnostic) : String :=
  diagnostic.fault.message ++ " at " ++ diagnostic.position.file ++ ":" ++
    toString diagnostic.position.offset.toNat

end TypedStyle
