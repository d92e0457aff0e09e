import ConwayTx.Fee
import ConwayTx.Proofs.Transaction

/-!
# Fees

Fees grow with the size, so an estimate covers a transaction with no more signatures than it was
made for (`estimate_covers`). The order of budgets does not matter for their sum.
-/

namespace ConwayTx

open Outcome

/-! ### Budgets -/

theorem ExUnits.add_right_comm (a b c : ExUnits) : (a.add b).add c = (a.add c).add b := by
  have clamped (x y z : Amount) :
      Amount.clamp ((Amount.clamp (x.toNat + y.toNat)).toNat + z.toNat) =
        Amount.clamp ((Amount.clamp (x.toNat + z.toNat)).toNat + y.toNat) := by
    refine UInt64.toNat_inj.1 ?_
    simp only [Amount.toNat_clamp]
    omega
  exact congrArg₂ ExUnits.mk (clamped _ _ _) (clamped _ _ _)

/-- The sum of all budgets, which stays at the largest word. -/
def Redeemer.totalExUnits (redeemers : List Redeemer) : ExUnits :=
  redeemers.foldl (fun total redeemer => total.add redeemer.exUnits) default

theorem Redeemer.totalExUnits_perm {l₁ l₂ : List Redeemer} (perm : l₁.Perm l₂) :
    totalExUnits l₁ = totalExUnits l₂ :=
  List.Perm.foldl_eq' perm (fun a _ b _ total => total.add_right_comm a.exUnits b.exUnits) _

/-! ### Sizes -/

theorem ProtocolParams.sizeFee_mono (params : ProtocolParams) {small large : Nat}
    (le : small ≤ large) : (params.sizeFee small).toNat ≤ (params.sizeFee large).toNat := by
  have bytes := Nat.mul_le_mul_right params.minFeePerByte.toNat le
  rw [sizeFee, sizeFee, Amount.toNat_clamp, Amount.toNat_clamp]
  omega

namespace Fee

/-- What a transaction of the size costs, padding included. -/
def price (params : ProtocolParams) (scriptCost padding : Amount) (size : Nat) : Amount :=
  Amount.clamp ((params.sizeFee size).toNat + scriptCost.toNat + padding.toNat)

variable {params : ProtocolParams} {scriptCost padding : Amount} {stakeWitnesses : Nat}
  {tx : Transaction} {e : Estimate}

theorem scriptCost_le_price (params : ProtocolParams) (scriptCost padding : Amount) (size : Nat) :
    scriptCost.toNat ≤ (price params scriptCost padding size).toNat := by
  have := Amount.toNat_le_largest scriptCost
  rw [price, Amount.toNat_clamp]
  omega

theorem price_mono {small large : Nat} (le : small ≤ large) :
    price params scriptCost padding small ≤ price params scriptCost padding large := by
  have sizes := params.sizeFee_mono le
  rw [UInt64.le_iff_toNat_le, price, price, Amount.toNat_clamp, Amount.toNat_clamp]
  omega

theorem estimate_ok (h : estimate params scriptCost padding stakeWitnesses tx = .ok e) :
    (signedShape tx stakeWitnesses).size = .ok e.size ∧
      e.fee = price params scriptCost padding e.size := by
  obtain ⟨size, measured, h⟩ := bind_ok h
  rw [← pure_ok h]
  exact ⟨measured, rfl⟩

/-- With no more signatures than counted, neither size nor price exceeds the estimate. -/
theorem estimate_covers (h : estimate params scriptCost padding stakeWitnesses tx = .ok e)
    {keys : List KeyWitness} (few : keys.length ≤ signatures tx stakeWitnesses) :
    ∃ size, (tx.withKeys keys).size = .ok size ∧ size ≤ e.size ∧
      price params scriptCost padding size ≤ e.fee := by
  obtain ⟨measured, charged⟩ := estimate_ok h
  obtain ⟨size, fits, le⟩ := Transaction.size_keys_le measured
    (few.trans_eq (List.length_replicate).symm)
  refine ⟨size, fits, le, ?_⟩
  rw [charged]
  exact price_mono le

end Fee

end ConwayTx
