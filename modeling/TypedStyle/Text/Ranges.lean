/-!
Sets of characters given by the inclusive ranges of their code points.
-/

namespace TypedStyle.Text

abbrev Ranges := List (Nat × Nat)

def Ranges.contains (ranges : Ranges) (char : Char) : Bool :=
  ranges.any fun (first, last) => first ≤ char.toNat && char.toNat ≤ last

end TypedStyle.Text
