/-!
Places in source texts. An offset counts bytes and is a 32-bit word, so a count of 2^32 or more
wraps around.
-/

namespace TypedStyle

structure Position where
  offset : UInt32
  file : String
  deriving DecidableEq

def Position.ofBytes (bytes : Nat) (file : String) : Position := ⟨UInt32.ofNat bytes, file⟩

def Position.null : Position := ⟨0, "<null>"⟩

/-- From `start` up to, and not including, `stop`. -/
structure Span where
  start : Position
  stop : Position
  deriving DecidableEq

def Span.ofBytes (start stop : Nat) (file : String) : Span :=
  ⟨Position.ofBytes start file, Position.ofBytes stop file⟩

def Span.null : Span := ⟨Position.null, Position.null⟩

end TypedStyle
