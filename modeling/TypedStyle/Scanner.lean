import TypedStyle.Position
import TypedStyle.Stop
import TypedStyle.Text.Bytes

/-!
A scanner stands at a byte offset of a source. The offset is a 64-bit word, so the scanner can be
moved anywhere, also back by wrapping around. What lies ahead of it is defined only at a character
boundary within the source.
-/

namespace TypedStyle

open Text

structure Scanner where
  source : String
  file : String
  offset : UInt64
  deriving DecidableEq

namespace Scanner

def start (source file : String) : Scanner := ⟨source, file, 0⟩

def advance (scanner : Scanner) (bytes : UInt64) : Scanner :=
  { scanner with offset := scanner.offset + bytes }

def position (scanner : Scanner) : Position :=
  Position.ofBytes scanner.offset.toNat scanner.file

def spanOf (scanner : Scanner) (bytes : UInt64) : Span :=
  Span.ofBytes scanner.offset.toNat (scanner.offset + bytes).toNat scanner.file

def remainder (scanner : Scanner) : Except Breach (List Char) :=
  match fromByte? scanner.offset.toNat scanner.source.toList with
  | some text => .ok text
  | none => .error .offBoundary

def next? (scanner : Scanner) : Except Breach (Option Char) := do
  return (← scanner.remainder).head?

def atEnd (scanner : Scanner) : Bool := byteLength scanner.source.toList ≤ scanner.offset.toNat

end Scanner

end TypedStyle
