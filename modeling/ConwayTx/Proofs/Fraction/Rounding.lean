import ConwayTx.Proofs.Collateral

/-!
# Rounding at one price

A quantity at one price is rounded up to the least integer that is not below the exact product, and no
number formed on the way leaves 128 bits (`formed_lt`, `rounded_ok_iff`). So a share of a fee is exact
wherever a word holds it, and reported where none does (`rounding_exact`).
-/

namespace ConwayTx

namespace Fraction

/-- The numbers on the way from a quantity and a price to the rounded product, one after another. -/
def formed (quantity : Amount) (price : Fraction) : List ℕ :=
  let product := scale quantity price
  [quantity.toNat * price.numer.toNat, product.numer, product.denom,
    product.numer + product.denom, product.numer + product.denom - 1,
    (product.numer + product.denom - 1) / product.denom]

/-- Rounded up into a word; `none` when the way there leaves 128 bits. -/
def rounded? (quantity : Amount) (price : Fraction) : Option (Except TooLarge Amount) :=
  (scale quantity price).ceil?.map amountOf

variable {quantity : Amount} {price : Fraction}

theorem formed_lt : ∀ n ∈ formed quantity price, n < Wide.limit := by
  have product := product_lt quantity price
  have sum := scale_lt quantity price
  have quotient := Nat.div_le_self ((scale quantity price).numer + (scale quantity price).denom - 1)
    (scale quantity price).denom
  intro n mem
  simp only [formed, List.mem_cons, List.not_mem_nil, or_false] at mem
  omega

theorem amountOf_eq_ok_iff {n : ℕ} {a : Amount} : amountOf n = .ok a ↔ a.toNat = n := by
  rw [← Amount.ofNat?_eq_some_iff, amountOf]
  split <;> rename_i fits <;> simp [fits]

theorem amountOf_eq_error_iff {n : ℕ} {e : TooLarge} :
    amountOf n = .error e ↔ e.value = n ∧ Amount.largest < n := by
  rw [← Amount.ofNat?_eq_none_iff, amountOf]
  obtain ⟨value⟩ := e
  split <;> rename_i fits <;> simp [fits, eq_comm]

theorem isLeast_iff_ceil {x : ℚ} (nonneg : 0 ≤ x) {m : ℕ} :
    IsLeast {k : ℤ | x ≤ k} m ↔ m = ⌈x⌉₊ := by
  have least : IsLeast {k : ℤ | x ≤ k} (⌈x⌉₊ : ℤ) := by
    rw [Int.natCast_ceil_eq_ceil nonneg]
    exact ⟨Int.le_ceil x, fun k above => Int.ceil_le.2 above⟩
  constructor
  · intro other
    exact Int.natCast_inj.1 (other.unique least)
  · rintro rfl
    exact least

theorem rounded?_eq (quantity : Amount) (price : Fraction) :
    rounded? quantity price = some (amountOf ⌈quantity.toNat * price.toRat⌉₊) := by
  have ceiling : (scale quantity price).ceil? = some ⌈(scale quantity price).toRat⌉₊ :=
    Wide.ceil?_eq_some_iff.2 ⟨scale_lt quantity price, rfl⟩
  rw [rounded?, ceiling, toRat_scale]
  rfl

theorem rounded_ok_iff {a : Amount} :
    rounded? quantity price = some (.ok a) ↔ a.toNat = ⌈quantity.toNat * price.toRat⌉₊ := by
  rw [rounded?_eq, Option.some_inj, amountOf_eq_ok_iff]

theorem rounded_error_iff {e : TooLarge} :
    rounded? quantity price = some (.error e) ↔
      e.value = ⌈quantity.toNat * price.toRat⌉₊ ∧ Amount.largest < e.value := by
  rw [rounded?_eq, Option.some_inj, amountOf_eq_error_iff]
  constructor
  · rintro ⟨value, above⟩
    exact ⟨value, value ▸ above⟩
  · rintro ⟨value, above⟩
    exact ⟨value, value ▸ above⟩

end Fraction

namespace Collateral

variable {fee amount : Amount} {percent : UInt32}

theorem ceil_hundredths (n : ℕ) : ⌈(n : ℚ) / 100⌉₊ = n ⌈/⌉ 100 := by
  have exact_share := Fraction.Wide.ceil_toRat ⟨n, 100, by decide⟩
  simpa [Fraction.Wide.toRat] using exact_share

theorem forFee_eq_ok_iff :
    forFee fee percent = .ok amount ↔ amount.toNat = fee.toNat * percent.toNat ⌈/⌉ 100 := by
  rw [← Amount.ofNat?_eq_some_iff, forFee_eq]
  split <;> rename_i fits <;> simp [fits]

theorem forFee_eq_error_iff :
    forFee fee percent = .error (.refused (.arithmeticOverflow .collateral)) ↔
      Amount.largest < fee.toNat * percent.toNat ⌈/⌉ 100 := by
  rw [← Amount.ofNat?_eq_none_iff, forFee_eq]
  split <;> rename_i fits <;> simp [fits]

end Collateral

/-- A price times a quantity has a rounded answer without leaving 128 bits; the answer is the least
integer not below the product, or the report that no word holds it. Shares of a fee are such products. -/
theorem Fraction.rounding_exact (quantity fee : Amount) (price : Fraction) (percent : UInt32) :
    (∀ n ∈ formed quantity price, n < Wide.limit) ∧
    (∃ answer, rounded? quantity price = some answer) ∧
    (∀ a, rounded? quantity price = some (.ok a) ↔
      IsLeast {k : ℤ | quantity.toNat * price.toRat ≤ k} a.toNat) ∧
    (∀ e, rounded? quantity price = some (.error e) ↔
      IsLeast {k : ℤ | quantity.toNat * price.toRat ≤ k} e.value ∧ Amount.largest < e.value) ∧
    (∀ a, Collateral.forFee fee percent = .ok a ↔
      a.toNat = ⌈(fee.toNat * percent.toNat : ℚ) / 100⌉₊) ∧
    (Collateral.forFee fee percent = .error (.refused (.arithmeticOverflow .collateral)) ↔
      Amount.largest < ⌈(fee.toNat * percent.toNat : ℚ) / 100⌉₊) := by
  have nonneg : 0 ≤ quantity.toNat * price.toRat :=
    mul_nonneg (Nat.cast_nonneg _) (div_nonneg (Nat.cast_nonneg _) (Nat.cast_nonneg _))
  have share : ⌈(fee.toNat * percent.toNat : ℚ) / 100⌉₊ = fee.toNat * percent.toNat ⌈/⌉ 100 := by
    rw [← Collateral.ceil_hundredths, Nat.cast_mul]
  simp only [isLeast_iff_ceil nonneg, share]
  exact ⟨formed_lt, ⟨_, rounded?_eq quantity price⟩, fun a => rounded_ok_iff,
    fun e => rounded_error_iff, fun a => Collateral.forFee_eq_ok_iff,
    Collateral.forFee_eq_error_iff⟩

end ConwayTx
