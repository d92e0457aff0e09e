/-!
# Numerals

Decimal numerals: digits, after an optional plus sign.
-/

namespace ConwayTx.Text

def digitsValue? (cs : List Char) : Option Nat :=
  if cs ≠ [] ∧ cs.all Char.isDigit then some (cs.foldl (fun n c => n * 10 + (c.toNat - 48)) 0)
  else none

def numeral? : List Char → Option Nat
  | '+' :: digits => digitsValue? digits
  | digits => digitsValue? digits

example : numeral? ['+', '1', '2'] = some 12 ∧ numeral? ['-', '1'] = none := by decide
example : numeral? [] = none ∧ numeral? ['+'] = none ∧ numeral? ['+', '+', '1'] = none := by decide

end ConwayTx.Text
