import ConwayTx.Bytes
import ConwayTx.Fraction
import ConwayTx.Text.Blank
import ConwayTx.Text.Numeral

/-!
# Decimal prices

A price written as a decimal is read exactly: the digits without the point over a power of ten.
-/

namespace ConwayTx.Fraction

inductive DecimalError where
  | empty
  | tooManyPlaces (text : String)
  | malformed (text : String)
deriving DecidableEq

def DecimalError.message : DecimalError → String
  | .empty => "Cannot convert empty string to Rational"
  | .tooManyPlaces text => s!"Too many decimal places in {text}"
  | .malformed text => s!"Cannot convert {text} to Rational"

/-- The parts before and after the first point; a text without one is all whole. -/
def splitPoint (cs : List Char) : List Char × List Char :=
  (cs.takeWhile (· ≠ '.'), (cs.dropWhile (· ≠ '.')).drop 1)

/-- As many places as a power of ten in a word has zeros. -/
def maxPlaces : Nat := 19

def ofDecimal (text : String) : Except DecimalError Fraction :=
  let (whole, fraction) := splitPoint (Text.trim text).toList
  let places := (Bytes.ofText (String.ofList fraction)).length
  if whole = [] ∧ fraction = [] then .error .empty
  else if maxPlaces < places then .error (.tooManyPlaces text)
  else
    match (Text.numeral? (whole ++ fraction)).bind Amount.ofNat? with
    | none => .error (.malformed text)
    | some numer =>
      match reduce? numer (UInt64.ofNat (Nat.pow 10 places)) with
      | some f => .ok f
      | none => .error (.malformed text)

end ConwayTx.Fraction
