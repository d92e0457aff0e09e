import ConwayTx.ExUnits
import ConwayTx.Proofs.Fraction.Rounding

/-!
# Margins on budgets

A product of a budget and its margin may stop at 128 bits before it is divided. Rounding up keeps
the order of numbers, so it may as well come first, and the largest product is then still no less
than the largest word (`largest_le_hundredths`). Where the product stops the word does too, so the
result is the exact share rounded up, or the largest word (`toNat_padded`, `withMargin_exact`).
-/

namespace ConwayTx.ExUnits

inductive Dimension
  | mem
  | steps

def amount (u : ExUnits) : Dimension → Amount
  | .mem => u.mem
  | .steps => u.steps

theorem amount_withMargin (u : ExUnits) (percent : Amount) (d : Dimension) :
    (u.withMargin percent).amount d = padded percent (u.amount d) := by
  cases d with
  | mem => rfl
  | steps => rfl

/-- `percent` hundredths more, rounded up, whether or not a word holds it. -/
def raised (percent v : ℕ) : ℕ := v * (100 + percent) ⌈/⌉ 100

theorem monotone_hundredths : Monotone fun n : ℕ => n ⌈/⌉ 100 :=
  (gc_mul_ceilDiv (Nat.succ_pos 99)).monotone_l

theorem le_raised (percent v : ℕ) : v ≤ raised percent v := by
  have covered : v * (100 + percent) ≤ 100 * raised percent v := le_smul_ceilDiv (Nat.succ_pos 99)
  have whole : v * 100 ≤ v * (100 + percent) := Nat.mul_le_mul_left v (Nat.le_add_right 100 percent)
  omega

theorem raised_mono {percent percent' v v' : ℕ} (amounts : v ≤ v') (percents : percent ≤ percent') :
    raised percent v ≤ raised percent' v' := by
  apply monotone_hundredths
  exact Nat.mul_le_mul amounts (Nat.add_le_add_left percents 100)

theorem largest_le_hundredths : Amount.largest ≤ largestProduct ⌈/⌉ 100 := by decide

theorem toNat_padded (percent v : Amount) :
    (padded percent v).toNat = min (raised percent.toNat v.toNat) Amount.largest := by
  have stops (n : ℕ) : min n largestProduct ⌈/⌉ 100 = min (n ⌈/⌉ 100) (largestProduct ⌈/⌉ 100) :=
    monotone_hundredths.map_min
  calc (padded percent v).toNat
    _ = min (min (v.toNat * (100 + percent.toNat)) largestProduct ⌈/⌉ 100) Amount.largest := by
      rw [padded, Amount.toNat_clamp, Nat.ceilDiv_eq_add_pred_div, Nat.add_sub_assoc (by decide)]
    _ = min (min (raised percent.toNat v.toNat) (largestProduct ⌈/⌉ 100)) Amount.largest := by
      rw [stops, raised]
    _ = min (raised percent.toNat v.toNat) Amount.largest := by
      rw [min_assoc, min_eq_right largest_le_hundredths]

theorem le_padded (percent v : Amount) : v ≤ padded percent v := by
  have exact_share := le_raised percent.toNat v.toNat
  have word := v.toNat_le_largest
  rw [UInt64.le_iff_toNat_le, toNat_padded]
  exact le_min exact_share word

theorem padded_mono {percent percent' v v' : Amount} (amounts : v ≤ v')
    (percents : percent ≤ percent') : padded percent v ≤ padded percent' v' := by
  rw [UInt64.le_iff_toNat_le] at amounts percents
  rw [UInt64.le_iff_toNat_le, toNat_padded, toNat_padded]
  exact min_le_min_right Amount.largest (raised_mono amounts percents)

/-- With a margin a budget is the exact share rounded up, or the largest word, although products stop
at 128 bits. It is never less than the budget, and a larger budget or margin never makes it less. -/
theorem withMargin_exact (u more : ExUnits) (percent higher : Amount) (d : Dimension) :
    ((u.withMargin percent).amount d).toNat =
      min ⌈((u.amount d).toNat * (100 + percent.toNat) : ℚ) / 100⌉₊ Amount.largest ∧
    (∃ (large : ExUnits) (high : Amount),
      largestProduct < (large.amount d).toNat * (100 + high.toNat)) ∧
    u.amount d ≤ (u.withMargin percent).amount d ∧
    (u.amount d ≤ more.amount d → percent ≤ higher →
      (u.withMargin percent).amount d ≤ (more.withMargin higher).amount d) := by
  have share : ⌈((u.amount d).toNat * (100 + percent.toNat) : ℚ) / 100⌉₊ =
      raised percent.toNat (u.amount d).toNat := by
    rw [raised, ← Collateral.ceil_hundredths]
    push_cast
    rfl
  simp only [amount_withMargin, share]
  refine ⟨toNat_padded _ _, ?_, le_padded _ _, padded_mono⟩
  -- Only near the top of both ranges does a product leave 128 bits.
  let most : Amount := 18446744073709551615
  refine ⟨⟨most, most⟩, most, ?_⟩
  cases d with
  | mem => decide
  | steps => decide

/-- The larger product is the one that stops. -/
theorem withMargin_exact_full :
    let few : ExUnits := ⟨101, 7⟩
    let full : ExUnits := ⟨3, 18446744073709551615⟩
    let most : Amount := 18446744073709551615
    few.amount .steps ≤ full.amount .steps ∧ 20 ≤ most ∧
      few.withMargin 20 = ⟨122, 9⟩ ∧
      largestProduct < (full.amount .steps).toNat * (100 + most.toNat) ∧
      (full.withMargin most).amount .steps = most ∧
      (few.withMargin 20).amount .steps ≤ (full.withMargin most).amount .steps := by
  intro few full most
  have amounts : few.amount .steps ≤ full.amount .steps := by decide
  have percents : 20 ≤ most := by decide
  obtain ⟨_, _, _, grows⟩ := withMargin_exact few full 20 most .steps
  exact ⟨amounts, percents, by decide, by decide, by decide, grows amounts percents⟩

end ConwayTx.ExUnits
