import ConwayTx.Fraction
import ConwayTx.Json.Form

/-!
# Fractions in JSON

Numerator and denominator in an array, in the terms they are in.
-/

namespace ConwayTx.Fraction

def toJson (f : Fraction) : Json := .array [.ofNat f.numer.toNat, .ofNat f.denom.toNat]

def ofJson? (j : Json) : Option Fraction := do
  let [numer, denom] ← j.list? Json.uint64? | none
  if h : denom ≠ 0 then some ⟨numer, denom, h⟩ else none

end ConwayTx.Fraction
