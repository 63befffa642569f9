import TypedStyle.Text.Extending
import TypedStyle.Text.Unprintable

/-!
Quoted text, as messages show it: between double quotes, with a backslash escape for every
character that a reader could not see or tell from the quoting itself.
-/

namespace TypedStyle.Text

/-- The Hangul fillers: letters by category, and default-ignorable, so that they leave no mark. -/
def isFiller (char : Char) : Bool :=
  [0x115f, 0x1160, 0x3164, 0xffa0].contains char.toNat

def isHidden (char : Char) : Bool := isUnprintable char || isExtending char || isFiller char

def hexEscape (char : Char) : List Char :=
  ['\\', 'u', '\x7b'] ++ Nat.toDigits 16 char.toNat ++ ['\x7d']

def quotedChar (char : Char) : List Char :=
  match char with
  | '\x00' => ['\\', '0']
  | '\t' => ['\\', 't']
  | '\r' => ['\\', 'r']
  | '\n' => ['\\', 'n']
  | '"' => ['\\', '"']
  | '\\' => ['\\', '\\']
  | char => if isHidden char then hexEscape char else [char]

def quoted (text : String) : String :=
  String.ofList ('"' :: text.toList.flatMap quotedChar ++ ['"'])

end TypedStyle.Text
