/-!
Colors that a stylesheet can write: three or six hexadecimal digits after a hash sign, or one of
the named colors.
-/

namespace TypedStyle.Color

def isHexDigit (char : Char) : Bool :=
  char.isDigit || ('a' ≤ char && char ≤ 'f') || ('A' ≤ char && char ≤ 'F')

def isHex (text : String) : Bool :=
  match text.toList with
  | '#' :: digits => (digits.length == 3 || digits.length == 6) && digits.all isHexDigit
  | _ => false

def named : List (String × String) :=
  [("black", "#000000"), ("white", "#ffffff"), ("red", "#ff0000"), ("green", "#008000"),
   ("blue", "#0000ff"), ("yellow", "#ffff00"), ("orange", "#ffa500"), ("purple", "#800080"),
   ("gray", "#808080"), ("grey", "#808080"), ("silver", "#c0c0c0"), ("navy", "#000080"),
   ("teal", "#008080"), ("maroon", "#800000"), ("transparent", "#00000000")]

def hex? (name : String) : Option String := named.lookup name

end TypedStyle.Color
