import ConwayTx.Proofs.Balance.Rounds
import ConwayTx.Proofs.Change
import ConwayTx.Proofs.Draft

/-!
# Conservation

The body of a round balances (`Ran.balances`): what settles is what the inputs leave of the demand,
and it goes into change and dust.
-/

namespace ConwayTx

/-- What goes in is what goes out, for the lovelace and for every asset. -/
def TxBody.Balances (params : ProtocolParams) (body : TxBody) (inputs : List Utxo) : Prop :=
  Utxo.held inputs + body.minted + body.withdrawn + body.refunded params =
    TxOutput.paid body.outputs + Funds.ofCoin body.fee.toNat + body.burned + body.deposited params

namespace Balancer

variable {b : Balancer} {extraSupply demand : Value} {inputs : List Utxo} {change : Change}

theorem funds_of_supplyOf {supply : Value} (h : supplyOf extraSupply inputs = .ok supply) :
    supply.funds = extraSupply.funds + Utxo.held inputs :=
  funds_of_supplyFold h

/-- What the inputs bring beyond the demand goes into change and dust. -/
theorem Settles.funds (settles : Settles b extraSupply demand inputs change)
    (extra : extraSupply.NoNegative) (pure : ∀ u ∈ inputs, u.value.NoNegative) :
    extraSupply.funds + Utxo.held inputs =
      demand.funds + TxOutput.paid change.outputs + Funds.ofCoin change.dust.toNat := by
  obtain ⟨_, supply, left, supplied, difference, planned⟩ := settles
  have sound : supply.NoNegative := by
    refine Value.noNegative_of_funds ?_
    rw [funds_of_supplyOf supplied]
    exact add_nonneg (Value.funds_nonneg extra) (Utxo.held_nonneg pure)
  have plan := Change.funds_of_plan (Value.noNegative_sub sound difference) planned
  rw [← funds_of_supplyOf supplied, ← Value.funds_sub difference, ← plan]
  abel

/-- The dust was part of the supply, so a word holds it together with the fee. -/
theorem Ran.charge {terms : Terms} {fee : Amount} {r : Round} (ran : Ran b terms fee demand change r) :
    fee.toNat + change.dust.toNat ≤ Amount.largest := by
  obtain ⟨_, supply, left, _, difference, planned⟩ := ran.settles
  have demanded := congrArg Prod.fst (Value.funds_add ran.demanded)
  have taken := congrArg Prod.fst (Value.funds_sub difference)
  have dust := Change.dust_of_plan planned
  have small := Amount.toNat_le_largest supply.coin
  simp only [Prod.fst_add, Value.funds, Value.ofCoin] at demanded taken
  omega

theorem Ran.balances {draft : Draft} {terms : Terms} {fee : Amount} {r : Round}
    (ran : Ran b terms fee demand change r) (of : Terms.Of b draft terms)
    (pure : ∀ u ∈ r.inputs, u.value.NoNegative) : r.tx.body.Balances b.params r.inputs := by
  obtain ⟨body, _⟩ := Draft.assemble_ok ran.assembled
  have settled := ran.settles.funds (Draft.nonneg_extraSupply of.extraSupply) pure
  have charged : (Amount.clamp (fee.toNat + change.dust.toNat)).toNat =
      fee.toNat + change.dust.toNat := by
    rw [Amount.toNat_clamp, min_eq_left ran.charge]
  rw [Draft.funds_of_extraSupply of.extraSupply, Value.funds_add ran.demanded, Value.funds_ofCoin,
    Draft.funds_of_baseDemand of.baseDemand] at settled
  rw [of.same] at body
  rw [body]
  show Utxo.held r.inputs + draft.body.minted + draft.body.withdrawn + draft.body.refunded b.params =
    TxOutput.paid (draft.body.outputs ++ change.outputs) +
      Funds.ofCoin (Amount.clamp (fee.toNat + change.dust.toNat)).toNat + draft.body.burned +
      draft.body.deposited b.params
  have split : Funds.ofCoin (fee.toNat + change.dust.toNat) =
      Funds.ofCoin fee.toNat + Funds.ofCoin change.dust.toNat := by
    simp [Funds.ofCoin]
  rw [charged, split, TxOutput.paid_append]
  calc Utxo.held r.inputs + draft.body.minted + draft.body.withdrawn + draft.body.refunded b.params
      = draft.body.minted + draft.body.withdrawn + draft.body.refunded b.params +
          Utxo.held r.inputs := by abel
    _ = _ := by rw [settled]; abel

end Balancer

end ConwayTx
