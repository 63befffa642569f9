/-!
Decimal numerals: an optional sign and at least one ASCII digit, with any number of leading
zeros. A numeral whose value does not fit the wanted width reads as nothing.
-/

namespace TypedStyle.Text

def digitsValue (digits : List Char) : Nat :=
  digits.foldl (fun value digit => 10 * value + (digit.toNat - '0'.toNat)) 0

def natural? : List Char → Option Nat
  | [] => none
  | digits => if digits.all Char.isDigit then some (digitsValue digits) else none

def integer? : List Char → Option Int
  | '-' :: digits => (natural? digits).map fun value => -(value : Int)
  | '+' :: digits => (natural? digits).map fun value => (value : Int)
  | digits => (natural? digits).map fun value => (value : Int)

def signed32? (text : List Char) : Option Int32 :=
  match integer? text with
  | none => none
  | some value =>
      if -2147483648 ≤ value ∧ value ≤ 2147483647 then some (Int32.ofInt value) else none

def unsigned64? (text : List Char) : Option Nat :=
  let value := match text with
    | '+' :: digits => natural? digits
    | digits => natural? digits
  value.filter (· < 18446744073709551616)

end TypedStyle.Text
