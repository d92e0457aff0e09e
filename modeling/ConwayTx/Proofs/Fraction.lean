import ConwayTx.Fraction
import Mathlib

/-!
# Fractions

Lowest terms keep the value of a fraction (`lowest_cross`, `reduce?_eq_some_iff`), and a scaled
quantity rounds up to the exact product without leaving 128 bits (`ceil?_scale`). A sum of two of them
can leave 128 bits; `Wide.rounded_iff` says exactly when.
-/

namespace ConwayTx.Fraction

/-- Equal fractions round up to the same number. -/
theorem ceilDiv_eq_of_cross {a b c d : ℕ} (hb : 0 < b) (hd : 0 < d) (cross : a * d = c * b) :
    a ⌈/⌉ b = c ⌈/⌉ d := by
  refine eq_of_forall_ge_iff fun k => ?_
  rw [ceilDiv_le_iff_le_mul hb, ceilDiv_le_iff_le_mul hd]
  constructor
  · intro le
    have scaled : c * b ≤ d * k * b := by
      calc c * b = a * d := cross.symm
        _ ≤ b * k * d := Nat.mul_le_mul_right d le
        _ = d * k * b := by ring
    exact Nat.le_of_mul_le_mul_right scaled hb
  · intro le
    have scaled : a * d ≤ b * k * d := by
      calc a * d = c * b := cross
        _ ≤ d * k * b := Nat.mul_le_mul_right b le
        _ = b * k * d := by ring
    exact Nat.le_of_mul_le_mul_right scaled hd

theorem lowest_cross (n d : ℕ) : n / Nat.gcd n d * d = n * (d / Nat.gcd n d) := by
  obtain ⟨left, hn⟩ := Nat.gcd_dvd_left n d
  obtain ⟨right, hd⟩ := Nat.gcd_dvd_right n d
  rcases Nat.eq_zero_or_pos (Nat.gcd n d) with zero | positive
  · have none : d = 0 := Nat.eq_zero_of_gcd_eq_zero_right zero
    simp [none]
  · have leftEq : n / Nat.gcd n d = left := Nat.div_eq_of_eq_mul_right positive hn
    have rightEq : d / Nat.gcd n d = right := Nat.div_eq_of_eq_mul_right positive hd
    rw [leftEq, rightEq]
    calc left * d = left * (Nat.gcd n d * right) := by rw [← hd]
      _ = Nat.gcd n d * left * right := by ring
      _ = n * right := by rw [← hn]

theorem toNat_quotient {a : ℕ} (bound : a < 2 ^ 64) (g : ℕ) : (UInt64.ofNat (a / g)).toNat = a / g := by
  rw [UInt64.toNat_ofNat', Nat.mod_eq_of_lt ((Nat.div_le_self a g).trans_lt bound)]

theorem reduce?_cross {n d : Amount} {f : Fraction} (h : reduce? n d = some f) :
    f.numer.toNat * d.toNat = n.toNat * f.denom.toNat := by
  unfold reduce? at h
  split at h
  · cases h
  · cases h
    show (UInt64.ofNat _).toNat * d.toNat = n.toNat * (UInt64.ofNat _).toNat
    rw [toNat_quotient n.toNat_lt, toNat_quotient d.toNat_lt]
    exact lowest_cross n.toNat d.toNat

theorem reduce?_isSome {n d : Amount} (h : d ≠ 0) : ∃ f, reduce? n d = some f := by
  unfold reduce?
  rw [dif_neg h]
  exact ⟨_, rfl⟩

theorem product_lt (quantity : Amount) (price : Fraction) :
    quantity.toNat * price.numer.toNat + price.denom.toNat < Wide.limit := by
  have q := quantity.toNat_lt
  have n := price.numer.toNat_lt
  have d := price.denom.toNat_lt
  have product : quantity.toNat * price.numer.toNat ≤ (2 ^ 64 - 1) * (2 ^ 64 - 1) :=
    Nat.mul_le_mul (by omega) (by omega)
  have limit : Wide.limit = 2 ^ 128 := by decide
  omega

/-- Lowest terms are no larger than what they are reduced from. -/
theorem scale_lt (quantity : Amount) (price : Fraction) :
    (scale quantity price).numer + (scale quantity price).denom < Wide.limit := by
  have numer : (scale quantity price).numer ≤ quantity.toNat * price.numer.toNat :=
    Nat.div_le_self _ _
  have denom : (scale quantity price).denom ≤ price.denom.toNat := Nat.div_le_self _ _
  exact (Nat.add_le_add numer denom).trans_lt (product_lt quantity price)

/-- Two words and one more fit 128 bits, so the product always has a ceiling. -/
theorem ceil?_scale (quantity : Amount) (price : Fraction) :
    (scale quantity price).ceil? =
      some (quantity.toNat * price.numer.toNat ⌈/⌉ price.denom.toNat) := by
  rw [Wide.ceil?, if_pos (scale_lt quantity price)]
  refine congrArg some ?_
  exact ceilDiv_eq_of_cross (scale quantity price).denom_pos price.toNat_denom_pos
    (lowest_cross (quantity.toNat * price.numer.toNat) price.denom.toNat)

/-! ### Exact values -/

def toRat (f : Fraction) : ℚ := f.numer.toNat / f.denom.toNat

def IsLowest (f : Fraction) : Prop := f.numer.toNat.Coprime f.denom.toNat

theorem eq_of_toRat {f g : Fraction} (left : f.IsLowest) (right : g.IsLowest)
    (same : f.toRat = g.toRat) : f = g := by
  obtain ⟨numer, denom⟩ := @Rat.div_int_inj f.numer.toNat f.denom.toNat g.numer.toNat g.denom.toNat
    (Int.natCast_pos.2 f.toNat_denom_pos) (Int.natCast_pos.2 g.toNat_denom_pos) left right
    (by simpa [toRat] using same)
  obtain ⟨n, d, _⟩ := f
  obtain ⟨n', d', _⟩ := g
  obtain rfl : n = n' := UInt64.toNat_inj.1 (Int.natCast_inj.1 numer)
  obtain rfl : d = d' := UInt64.toNat_inj.1 (Int.natCast_inj.1 denom)
  rfl

theorem isLowest_reduce? {n d : Amount} {f : Fraction} (h : reduce? n d = some f) : f.IsLowest := by
  unfold reduce? at h
  split at h
  · cases h
  · rename_i nonzero
    cases h
    have positive : 0 < d.toNat :=
      Nat.pos_of_ne_zero fun zero => nonzero (UInt64.toNat_inj.1 zero)
    show (UInt64.ofNat _).toNat.Coprime (UInt64.ofNat _).toNat
    rw [toNat_quotient n.toNat_lt, toNat_quotient d.toNat_lt]
    exact Nat.coprime_div_gcd_div_gcd (Nat.gcd_pos_of_pos_right _ positive)

theorem toRat_reduce? {n d : Amount} {f : Fraction} (nonzero : d ≠ 0) (h : reduce? n d = some f) :
    f.toRat = n.toNat / d.toNat := by
  have left : (f.denom.toNat : ℚ) ≠ 0 := by exact_mod_cast f.toNat_denom_pos.ne'
  have right : (d.toNat : ℚ) ≠ 0 := by
    exact_mod_cast fun zero => nonzero (UInt64.toNat_inj.1 zero)
  rw [toRat, div_eq_div_iff left right]
  exact_mod_cast reduce?_cross h

theorem reduce?_eq_some_iff {n d : Amount} {f : Fraction} (nonzero : d ≠ 0) :
    reduce? n d = some f ↔ f.IsLowest ∧ f.toRat = n.toNat / d.toNat := by
  constructor
  · intro h
    exact ⟨isLowest_reduce? h, toRat_reduce? nonzero h⟩
  · rintro ⟨lowest, value⟩
    obtain ⟨g, h⟩ := reduce?_isSome nonzero
    rw [h, eq_of_toRat lowest (isLowest_reduce? h) (value.trans (toRat_reduce? nonzero h).symm)]

namespace Wide

def toRat (a : Wide) : ℚ := a.numer / a.denom

def IsLowest (a : Wide) : Prop := a.numer.Coprime a.denom

theorem isLowest_lowest {n d : ℕ} (h : 0 < d) : (lowest n d h).IsLowest :=
  Nat.coprime_div_gcd_div_gcd (Nat.gcd_pos_of_pos_right n h)

theorem toRat_lowest {n d : ℕ} (h : 0 < d) : (lowest n d h).toRat = n / d := by
  have left : ((lowest n d h).denom : ℚ) ≠ 0 := by
    exact_mod_cast (lowest n d h).denom_pos.ne'
  have right : (d : ℚ) ≠ 0 := by exact_mod_cast h.ne'
  rw [toRat, div_eq_div_iff left right]
  exact_mod_cast lowest_cross n d

variable {a b c : Wide}

theorem num_toRat (h : a.IsLowest) : a.toRat.num = a.numer := by
  have := @Rat.num_div_eq_of_coprime a.numer a.denom (Int.natCast_pos.2 a.denom_pos) h
  simpa [toRat] using this

theorem den_toRat (h : a.IsLowest) : a.toRat.den = a.denom := by
  have := @Rat.den_div_eq_of_coprime a.numer a.denom (Int.natCast_pos.2 a.denom_pos) h
  simp only [Int.cast_natCast, Int.natCast_inj] at this
  exact this

theorem ceil_toRat (a : Wide) : ⌈a.toRat⌉₊ = a.numer ⌈/⌉ a.denom := by
  refine eq_of_forall_ge_iff fun k => ?_
  have positive : (0 : ℚ) < a.denom := by exact_mod_cast a.denom_pos
  rw [Nat.ceil_le, ceilDiv_le_iff_le_mul a.denom_pos, toRat, div_le_iff₀ positive, mul_comm]
  exact_mod_cast Iff.rfl

theorem ceil?_eq_some_iff {n : ℕ} :
    a.ceil? = some n ↔ a.numer + a.denom < limit ∧ n = ⌈a.toRat⌉₊ := by
  have rounded : (a.numer + a.denom - 1) / a.denom = ⌈a.toRat⌉₊ := (ceil_toRat a).symm
  rw [ceil?, rounded]
  split <;> rename_i fits
  · simp [fits, eq_comm]
  · simp [fits]

/-- What a sum counts in units of the least common denominator. -/
def common (a b : Wide) : ℕ :=
  a.numer * (Nat.lcm a.denom b.denom / a.denom) + b.numer * (Nat.lcm a.denom b.denom / b.denom)

theorem toRat_mul_of_dvd {m : ℕ} (h : a.denom ∣ m) :
    a.toRat * m = (a.numer * (m / a.denom) : ℕ) := by
  obtain ⟨k, rfl⟩ := h
  have nonzero : (a.denom : ℚ) ≠ 0 := by exact_mod_cast a.denom_pos.ne'
  rw [Nat.mul_div_cancel_left k a.denom_pos, toRat]
  push_cast
  field_simp

theorem common_eq (a b : Wide) :
    (common a b : ℚ) = (a.toRat + b.toRat) * Nat.lcm a.denom b.denom := by
  rw [add_mul, toRat_mul_of_dvd (Nat.dvd_lcm_left _ _), toRat_mul_of_dvd (Nat.dvd_lcm_right _ _)]
  exact Nat.cast_add _ _

theorem lcm_denom_pos (a b : Wide) : 0 < Nat.lcm a.denom b.denom :=
  Nat.lcm_pos a.denom_pos b.denom_pos

def sum (a b : Wide) : Wide :=
  lowest (common a b) (Nat.lcm a.denom b.denom) (lcm_denom_pos a b)

theorem toRat_sum (a b : Wide) : (sum a b).toRat = a.toRat + b.toRat := by
  have nonzero : (Nat.lcm a.denom b.denom : ℚ) ≠ 0 := by
    exact_mod_cast (lcm_denom_pos a b).ne'
  rw [sum, toRat_lowest, common_eq, mul_div_cancel_right₀ _ nonzero]

/-- Denominators of one word have a common one of 128 bits, so only the parts above it matter. -/
theorem add?_eq_some_iff (left : a.denom < 2 ^ 64) (right : b.denom < 2 ^ 64) :
    a.add? b = some c ↔ common a b < limit ∧ c = sum a b := by
  by_cases same : a.denom = b.denom
  · have lcm : Nat.lcm a.denom b.denom = b.denom := by rw [same, Nat.lcm_self]
    have counted : common a b = a.numer + b.numer := by
      rw [common, lcm, same, Nat.div_self b.denom_pos, Nat.mul_one, Nat.mul_one]
    simp only [add?, if_pos same, sum, counted, lcm]
    split <;> rename_i fits
    · simp [fits, eq_comm]
    · simp [fits]
  · have lcm : Nat.lcm a.denom b.denom < limit := by
      have product : a.denom * b.denom < 2 ^ 64 * 2 ^ 64 := Nat.mul_lt_mul'' left right
      have := Nat.lcm_le_mul a.denom_pos b.denom_pos
      have : limit = 2 ^ 64 * 2 ^ 64 := by decide
      omega
    rw [add?, if_neg same]
    by_cases fits : common a b < limit
    · have parts := fits
      rw [common] at parts
      rw [if_pos ⟨lcm, by omega, by omega, parts⟩]
      constructor
      · intro h
        exact ⟨fits, (Option.some.inj h).symm⟩
      · rintro ⟨_, rfl⟩
        rfl
    · rw [if_neg fun parts => fits parts.2.2.2]
      simp [fits]

/-- Neither the sum over the least common denominator nor its rounding leaves 128 bits. -/
structure Fits (x y : ℚ) : Prop where
  sum : (x + y) * Nat.lcm x.den y.den < limit
  ceiling : (x + y).num + (x + y).den < limit

theorem fits_iff (left : a.IsLowest) (right : b.IsLowest) :
    Fits a.toRat b.toRat ↔
      common a b < limit ∧ (sum a b).numer + (sum a b).denom < limit := by
  have isLowest : (sum a b).IsLowest := isLowest_lowest _
  have summed : (a.toRat + b.toRat) * Nat.lcm a.toRat.den b.toRat.den < limit ↔
      common a b < limit := by
    rw [den_toRat left, den_toRat right, ← common_eq]
    exact Nat.cast_lt
  have rounded : (a.toRat + b.toRat).num + (a.toRat + b.toRat).den < limit ↔
      (sum a b).numer + (sum a b).denom < limit := by
    rw [← toRat_sum, num_toRat isLowest, den_toRat isLowest]
    exact_mod_cast Iff.rfl
  constructor
  · intro h
    exact ⟨summed.1 h.sum, rounded.1 h.ceiling⟩
  · rintro ⟨below, within⟩
    exact ⟨summed.2 below, rounded.2 within⟩

/-- A rounded sum is exact where it is formed at all. -/
theorem rounded_iff {n : ℕ} (lowestLeft : a.IsLowest) (lowestRight : b.IsLowest)
    (left : a.denom < 2 ^ 64) (right : b.denom < 2 ^ 64) :
    (a.add? b).bind ceil? = some n ↔
      Fits a.toRat b.toRat ∧ n = ⌈a.toRat + b.toRat⌉₊ := by
  rw [fits_iff lowestLeft lowestRight, ← toRat_sum, Option.bind_eq_some_iff]
  constructor
  · rintro ⟨c, added, ceiled⟩
    obtain ⟨below, rfl⟩ := (add?_eq_some_iff left right).1 added
    obtain ⟨within, same⟩ := ceil?_eq_some_iff.1 ceiled
    exact ⟨⟨below, within⟩, same⟩
  · rintro ⟨⟨below, within⟩, same⟩
    exact ⟨_, (add?_eq_some_iff left right).2 ⟨below, rfl⟩,
      ceil?_eq_some_iff.2 ⟨within, same⟩⟩

/-- Products of parts that fit are enough: the least common denominator only makes them smaller. -/
theorem fits_of_products (left : a.IsLowest) (right : b.IsLowest)
    (h : a.numer * b.denom + b.numer * a.denom + a.denom * b.denom < limit) :
    Fits a.toRat b.toRat := by
  have lcm : Nat.lcm a.denom b.denom ≤ a.denom * b.denom := Nat.lcm_le_mul a.denom_pos b.denom_pos
  have first : Nat.lcm a.denom b.denom / a.denom ≤ b.denom := Nat.div_le_of_le_mul lcm
  have second : Nat.lcm a.denom b.denom / b.denom ≤ a.denom :=
    Nat.div_le_of_le_mul (lcm.trans_eq (Nat.mul_comm _ _))
  have total : common a b ≤ a.numer * b.denom + b.numer * a.denom :=
    Nat.add_le_add (Nat.mul_le_mul_left _ first) (Nat.mul_le_mul_left _ second)
  have numer : (sum a b).numer ≤ common a b := Nat.div_le_self _ _
  have denom : (sum a b).denom ≤ Nat.lcm a.denom b.denom := Nat.div_le_self _ _
  exact (fits_iff left right).2 ⟨by omega, by omega⟩

end Wide

theorem toRat_scale (quantity : Amount) (price : Fraction) :
    (scale quantity price).toRat = quantity.toNat * price.toRat := by
  rw [scale, Wide.toRat_lowest, toRat, Nat.cast_mul, mul_div_assoc]

theorem isLowest_scale (quantity : Amount) (price : Fraction) :
    (scale quantity price).IsLowest :=
  Wide.isLowest_lowest price.toNat_denom_pos

theorem denom_scale_lt (quantity : Amount) (price : Fraction) :
    (scale quantity price).denom < 2 ^ 64 :=
  (Nat.div_le_self _ _).trans_lt price.denom.toNat_lt

end ConwayTx.Fraction
