import TypedStyle.Text.Bytes

/-!
Lines of a text. A line keeps the newline that ends it, and only a newline ends a line.
-/

namespace TypedStyle.Text

/-- The lines of a text whose first line starts with `started`, held in reverse. -/
def linesAfter (started : List Char) : List Char → List (List Char)
  | [] => if started.isEmpty then [] else [started.reverse]
  | char :: rest =>
      if char = '\n' then (char :: started).reverse :: linesAfter [] rest
      else linesAfter (char :: started) rest

def lines (text : List Char) : List (List Char) := linesAfter [] text

theorem flatten_linesAfter (started text : List Char) :
    (linesAfter started text).flatten = started.reverse ++ text := by
  induction text generalizing started with
  | nil =>
      cases started with
      | nil => rfl
      | cons last before => simp [linesAfter]
  | cons char rest ih =>
      by_cases newline : char = '\n'
      · simp [linesAfter, newline, ih]
      · simp [linesAfter, newline, ih]

theorem flatten_lines (text : List Char) : (lines text).flatten = text := flatten_linesAfter [] text

/-- A place in a text: the number of its line counted from one, that line and the bytes of the
line before the place. -/
structure Place where
  line : Nat
  text : List Char
  column : Nat
  deriving DecidableEq

def placeIn (line offset : Nat) : List (List Char) → Option Place
  | [] => none
  | text :: later =>
      if offset < byteLength text then some ⟨line, text, offset⟩
      else placeIn (line + 1) (offset - byteLength text) later

def place? (text : List Char) (offset : Nat) : Option Place := placeIn 1 offset (lines text)

end TypedStyle.Text
