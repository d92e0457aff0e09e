import ConwayTx.Fee
import ConwayTx.Proofs.Fraction

/-!
# Prices of script runs

A price is the exact cost rounded up once, wherever 128 bits suffice to form it (`scripts_exact`),
and prices of moderate parts always can be formed (`scripts_answers`).
-/

namespace ConwayTx.Fee

open Fraction

variable (units : ExUnits) (params : ProtocolParams)

def memoryCost : ℚ := units.mem.toNat * params.priceMem.toRat

def stepsCost : ℚ := units.steps.toNat * params.priceStep.toRat

/-- What script runs cost before it is rounded. -/
def runCost : ℚ := memoryCost units params + stepsCost units params

def CostFits : Prop := Wide.Fits (memoryCost units params) (stepsCost units params)

/-- Rounded up, the cost is a word, refused as too large, or never formed. -/
theorem scripts_cases :
    (CostFits units params ∧
      scripts units params = match Amount.ofNat? ⌈runCost units params⌉₊ with
        | some fee => .ok fee
        | none => .error (.refused (.arithmeticOverflow .scripts))) ∨
    (¬ CostFits units params ∧ scripts units params = .error .overflow) := by
  have rounded (n : ℕ) := @Wide.rounded_iff _ _ n (isLowest_scale units.mem params.priceMem)
    (isLowest_scale units.steps params.priceStep) (denom_scale_lt _ _) (denom_scale_lt _ _)
  simp only [toRat_scale] at rounded
  by_cases fits : CostFits units params
  · have formed := (rounded _).2 ⟨fits, rfl⟩
    refine .inl ⟨fits, ?_⟩
    rw [scripts, formed]
    rfl
  · refine .inr ⟨fits, ?_⟩
    have unformed : ((scale units.mem params.priceMem).add?
        (scale units.steps params.priceStep)).bind Wide.ceil? = none := by
      refine Option.eq_none_iff_forall_ne_some.2 fun n formed => fits ?_
      exact ((rounded n).1 formed).1
    rw [scripts, unformed]

theorem scripts_exact :
    (∀ fee, scripts units params = .ok fee ↔
      CostFits units params ∧ fee.toNat = ⌈runCost units params⌉₊) ∧
    (scripts units params = .error (.refused (.arithmeticOverflow .scripts)) ↔
      CostFits units params ∧ Amount.largest < ⌈runCost units params⌉₊) ∧
    (scripts units params = .error .overflow ↔ ¬ CostFits units params) := by
  rcases scripts_cases units params with ⟨fits, answer⟩ | ⟨unfit, answer⟩
  · rw [answer]
    cases word : Amount.ofNat? ⌈runCost units params⌉₊ with
    | some fee =>
      have same := Amount.ofNat?_eq_some_iff.1 word
      have := fee.toNat_le_largest
      refine ⟨fun fee' => ?_, ?_, ?_⟩
      · rw [Except.ok.injEq, ← same, UInt64.toNat_inj]
        simp [fits, eq_comm]
      · simp only [reduceCtorEq, false_iff]
        omega
      · simp [fits]
    | none =>
      have above := Amount.ofNat?_eq_none_iff.1 word
      refine ⟨fun fee => ?_, ?_, ?_⟩
      · have := fee.toNat_le_largest
        simp only [reduceCtorEq, false_iff]
        omega
      · simp [fits, above]
      · simp [fits]
  · rw [answer]
    simp [unfit]

/-- Thin prices have no common denominator that leaves room to round, full ones no room for their
sum. -/
theorem scripts_unanswered :
    let thin : ProtocolParams := {
      priceMem := ⟨1, 18446744073709551615, by decide⟩
      priceStep := ⟨1, 18446744073709551613, by decide⟩ }
    let full : ProtocolParams := {
      priceMem := ⟨18446744073709551615, 1, by decide⟩
      priceStep := ⟨18446744073709551615, 1, by decide⟩ }
    let few : ExUnits := ⟨2, 3⟩
    let most : ExUnits := ⟨18446744073709551615, 18446744073709551615⟩
    (⌈runCost few thin⌉₊ ≤ Amount.largest ∧ ¬ ∃ fee, scripts few thin = .ok fee) ∧
      (Amount.largest < ⌈runCost most full⌉₊ ∧
        scripts most full ≠ .error (.refused (.arithmeticOverflow .scripts))) := by
  intro thin full few most
  have unformed : scripts few thin = .error .overflow := by decide +kernel
  have unformed' : scripts most full = .error .overflow := by decide +kernel
  refine ⟨⟨?_, ?_⟩, ?_, ?_⟩
  · have below : runCost few thin ≤ Amount.largest := by decide +kernel
    exact Nat.ceil_le.2 below
  · rintro ⟨fee, answer⟩
    rw [unformed] at answer
    cases answer
  · have above : Amount.largest < runCost most full := by decide +kernel
    exact Nat.lt_ceil.2 above
  · rw [unformed']
    simp

/-! ### Moderate prices -/

/-- Both parts below `2 ^ 31`. -/
def Moderate (price : Fraction) : Prop :=
  price.numer.toNat < 2 ^ 31 ∧ price.denom.toNat < 2 ^ 31

instance (price : Fraction) : Decidable (Moderate price) :=
  inferInstanceAs (Decidable (_ ∧ _))

variable {units params}

theorem costFits_of_moderate (memory : Moderate params.priceMem)
    (steps : Moderate params.priceStep) : CostFits units params := by
  have numer (quantity : Amount) {price : Fraction} (h : Moderate price) :
      (scale quantity price).numer ≤ (2 ^ 64 - 1) * (2 ^ 31 - 1) :=
    (Nat.div_le_self _ _).trans
      (Nat.mul_le_mul (Nat.le_sub_one_of_lt quantity.toNat_lt) (Nat.le_sub_one_of_lt h.1))
  have denom (quantity : Amount) {price : Fraction} (h : Moderate price) :
      (scale quantity price).denom ≤ 2 ^ 31 - 1 :=
    (Nat.div_le_self _ _).trans (Nat.le_sub_one_of_lt h.2)
  have fits := Wide.fits_of_products (isLowest_scale units.mem params.priceMem)
    (isLowest_scale units.steps params.priceStep) ?_
  · rw [toRat_scale, toRat_scale] at fits
    exact fits
  · have left := Nat.mul_le_mul (numer units.mem memory) (denom units.steps steps)
    have right := Nat.mul_le_mul (numer units.steps steps) (denom units.mem memory)
    have common := Nat.mul_le_mul (denom units.mem memory) (denom units.steps steps)
    have limit : Wide.limit = 2 ^ 128 := by decide
    omega

/-- With moderate prices every budget has its price, or one that is too large for a word. -/
theorem scripts_answers (memory : Moderate params.priceMem) (steps : Moderate params.priceStep) :
    scripts units params = match Amount.ofNat? ⌈runCost units params⌉₊ with
      | some fee => .ok fee
      | none => .error (.refused (.arithmeticOverflow .scripts)) := by
  rcases scripts_cases units params with ⟨_, answer⟩ | ⟨unfit, _⟩
  · exact answer
  · exact absurd (costFits_of_moderate memory steps) unfit

example : Moderate ({} : ProtocolParams).priceMem ∧ Moderate ({} : ProtocolParams).priceStep := by
  decide

end ConwayTx.Fee
