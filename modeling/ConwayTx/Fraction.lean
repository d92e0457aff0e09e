import ConwayTx.Amount

/-!
# Fractions

Prices and shares are fractions of two words. Products with a quantity are exact and wider; adding
two of them can leave 128 bits, which `Wide.add?` and `Wide.ceil?` report.
-/

namespace ConwayTx

/-- Not necessarily in lowest terms. -/
structure Fraction where
  numer : Amount
  denom : Amount
  denom_ne_zero : denom ≠ 0
deriving DecidableEq

namespace Fraction

/-- A fraction of exact numbers, whose parts are meant to fit 128 bits. -/
structure Wide where
  numer : Nat
  denom : Nat
  denom_pos : 0 < denom
deriving DecidableEq

theorem div_gcd_pos {n d : Nat} (h : 0 < d) : 0 < d / Nat.gcd n d :=
  Nat.div_pos (Nat.le_of_dvd h (Nat.gcd_dvd_right n d)) (Nat.gcd_pos_of_pos_right n h)

/-- Lowest terms; `none` without a denominator. -/
def reduce? (numer denom : Amount) : Option Fraction :=
  if h : denom = 0 then none
  else
    let g := Nat.gcd numer.toNat denom.toNat
    some ⟨UInt64.ofNat (numer.toNat / g), UInt64.ofNat (denom.toNat / g), by
      intro zero
      have positive : 0 < denom.toNat :=
        Nat.pos_of_ne_zero fun z => h (UInt64.toNat_inj.1 (by simpa using z))
      have quotient : 0 < denom.toNat / g := div_gcd_pos positive
      have bound : denom.toNat / g < 2 ^ 64 :=
        Nat.lt_of_le_of_lt (Nat.div_le_self _ _) denom.toNat_lt
      have value := congrArg UInt64.toNat zero
      rw [UInt64.toNat_ofNat', Nat.mod_eq_of_lt bound] at value
      exact absurd value (Nat.ne_of_gt quotient)⟩

def Wide.lowest (numer denom : Nat) (h : 0 < denom) : Wide :=
  ⟨numer / Nat.gcd numer denom, denom / Nat.gcd numer denom, div_gcd_pos h⟩

theorem toNat_denom_pos (f : Fraction) : 0 < f.denom.toNat :=
  Nat.pos_of_ne_zero fun z => f.denom_ne_zero (UInt64.toNat_inj.1 (by simpa using z))

/-- The exact product of a quantity and a price. -/
def scale (quantity : Amount) (price : Fraction) : Wide :=
  .lowest (quantity.toNat * price.numer.toNat) price.denom.toNat price.toNat_denom_pos

namespace Wide

def limit : Nat := 1 <<< 128

/-- The sum over the least common denominator; `none` when a part of it leaves 128 bits. -/
def add? (a b : Wide) : Option Wide :=
  if a.denom = b.denom then
    if a.numer + b.numer < limit then some (lowest (a.numer + b.numer) b.denom b.denom_pos)
    else none
  else
    let common := Nat.lcm a.denom b.denom
    let left := a.numer * (common / a.denom)
    let right := b.numer * (common / b.denom)
    if common < limit ∧ left < limit ∧ right < limit ∧ left + right < limit then
      some (lowest (left + right) common (Nat.lcm_pos a.denom_pos b.denom_pos))
    else none

/-- The least integer not below; `none` when `numer + denom` leaves 128 bits. -/
def ceil? (a : Wide) : Option Nat :=
  if a.numer + a.denom < limit then some ((a.numer + a.denom - 1) / a.denom) else none

end Wide

/-- A rounded product that no word holds. -/
structure TooLarge where
  value : Nat
deriving DecidableEq

def TooLarge.message (e : TooLarge) : String := s!"{e.value} does not fit in u64"

def amountOf (n : Nat) : Except TooLarge Amount :=
  match Amount.ofNat? n with
  | some a => .ok a
  | none => .error ⟨n⟩

end Fraction

end ConwayTx
