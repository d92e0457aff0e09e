import ConwayTx.Chain.Fixed
import ConwayTx.Proofs.Builder.Fee
import ConwayTx.Proofs.Collateral

/-!
# Collateral of finalized transactions

Collateral is chosen before the fee is known, for the largest fee a transaction has without
scripts. It covers a fee up to that one (`collateral_covers_iff`), and a larger one as far as
rounding allows.
-/

namespace ConwayTx.Builder

open Outcome

/-- The target of collateral that the builder chooses by itself. -/
theorem totalCollateral_of_addCollateralTo {b : Builder} {start body : TxBody} {ground : Ground}
    {maxFee : Amount} {inputs : List Utxo}
    (h : b.addCollateralTo start ground maxFee inputs = .ok body) (chosen : b.collateral = [])
    (automatic : b.collateralAmount = none) (percent : 0 < ground.params.collateralPercent) :
    ∃ total, body.totalCollateral = some total ∧
      total.toNat = maxFee.toNat * ground.params.collateralPercent.toNat ⌈/⌉ 100 := by
  unfold addCollateralTo at h
  rw [if_pos (by rw [chosen]; rfl)] at h
  obtain ⟨target, targeted, h⟩ := bind_ok h
  obtain ⟨choice, selected, h⟩ := bind_ok h
  rw [← pure_ok h]
  refine ⟨choice.total, rfl, ?_⟩
  rw [(Collateral.select_ok (mapError_ok selected)).2.1]
  rw [collateralTarget, automatic, if_pos percent] at targeted
  exact Collateral.forFee_ok targeted

variable {b : Builder} {chain : Chain} {params : ProtocolParams} {tx : Transaction}

/-- Where the chain's bound is the default one, the chosen collateral is the share of that bound. -/
theorem totalCollateral_of_finalize (h : (b.finalize chain).1 = .ok tx)
    (fetched : chain.params = .ok params) (bound : chain.maxTxFee = .ok params.maxTxFee)
    (runs : b.runsScripts = true) (chosen : b.collateral = [])
    (automatic : b.collateralAmount = none) (percent : 0 < params.collateralPercent) :
    ∃ total, tx.body.totalCollateral = some total ∧
      total.toNat = params.maxTxFee.toNat * params.collateralPercent.toNat ⌈/⌉ 100 := by
  obtain ⟨balanced, _, built, rfl, _⟩ := finalize_ok h
  obtain ⟨t⟩ := build_ok built
  obtain rfl : params = t.ground.params := Except.ok.inj (fetched.symm.trans t.params)
  have sameBound : t.maxFee = t.ground.params.maxTxFee :=
    Except.ok.inj (t.bounded.symm.trans bound)
  have secures := t.secures
  rw [if_pos runs] at secures
  obtain ⟨total, secured, share⟩ :=
    totalCollateral_of_addCollateralTo secures chosen automatic percent
  rw [sameBound] at share
  obtain ⟨inputs, change, charged, assembled⟩ := Balancer.balance_assembles t.balances
  have kept : balanced.tx.body.totalCollateral = t.body.totalCollateral := by
    rw [(Draft.assemble_ok assembled).1]
  exact ⟨total, kept.trans secured, share⟩

/-- The collateral covers its share of the fee just when that share, rounded up, is no larger than
the share of the bound. -/
theorem collateral_covers_iff (h : (b.finalize chain).1 = .ok tx)
    (fetched : chain.params = .ok params) (bound : chain.maxTxFee = .ok params.maxTxFee)
    (runs : b.runsScripts = true) (chosen : b.collateral = [])
    (automatic : b.collateralAmount = none) (percent : 0 < params.collateralPercent) :
    ∃ total, tx.body.totalCollateral = some total ∧
      total.toNat = params.maxTxFee.toNat * params.collateralPercent.toNat ⌈/⌉ 100 ∧
      (tx.body.fee.toNat * params.collateralPercent.toNat ≤ total.toNat * 100 ↔
        tx.body.fee.toNat * params.collateralPercent.toNat ⌈/⌉ 100 ≤
          params.maxTxFee.toNat * params.collateralPercent.toNat ⌈/⌉ 100) ∧
      (tx.body.fee ≤ params.maxTxFee →
        tx.body.fee.toNat * params.collateralPercent.toNat ≤ total.toNat * 100) := by
  obtain ⟨total, secured, share⟩ :=
    totalCollateral_of_finalize h fetched bound runs chosen automatic percent
  have covers : tx.body.fee.toNat * params.collateralPercent.toNat ≤ total.toNat * 100 ↔
      tx.body.fee.toNat * params.collateralPercent.toNat ⌈/⌉ 100 ≤
        params.maxTxFee.toNat * params.collateralPercent.toNat ⌈/⌉ 100 := by
    rw [ceilDiv_le_iff_le_mul (by decide), share, Nat.mul_comm 100]
  refine ⟨total, secured, share, covers, fun within => covers.2 ?_⟩
  refine (gc_mul_ceilDiv (by decide)).monotone_l ?_
  exact Nat.mul_le_mul_right _ (UInt64.le_iff_toNat_le.1 within)

/-- Scripts whose own share is above the share of the bound leave the collateral short, whatever
the size of the transaction. -/
theorem collateral_short_of_scripts {cost : Amount} (reachable : Reachable b)
    (estimated : b.fee = none) (h : (b.finalize chain).1 = .ok tx)
    (fetched : chain.params = .ok params) (bound : chain.maxTxFee = .ok params.maxTxFee)
    (runs : b.runsScripts = true) (chosen : b.collateral = [])
    (automatic : b.collateralAmount = none) (percent : 0 < params.collateralPercent)
    (priced : Fee.scripts (Redeemer.totalExUnits tx.witnesses.redeemers.values) params = .ok cost)
    (above : params.maxTxFee.toNat * params.collateralPercent.toNat ⌈/⌉ 100 <
      cost.toNat * params.collateralPercent.toNat ⌈/⌉ 100) :
    ∃ total, tx.body.totalCollateral = some total ∧
      total.toNat * 100 < tx.body.fee.toNat * params.collateralPercent.toNat := by
  obtain ⟨total, secured, share⟩ :=
    totalCollateral_of_finalize h fetched bound runs chosen automatic percent
  obtain ⟨same, size, cost', fetched', _, _, priced', pays⟩ :=
    @finalize_price b chain tx [] reachable estimated h (Nat.zero_le _)
  obtain rfl : same = params := Except.ok.inj (fetched'.symm.trans fetched)
  obtain rfl : cost' = cost := Except.ok.inj (priced'.symm.trans priced)
  have least : cost'.toNat ≤ tx.body.fee.toNat :=
    (Fee.scriptCost_le_price _ _ _ _).trans (UInt64.le_iff_toNat_le.1 pays)
  refine ⟨total, secured, (?_ : _ < cost'.toNat * _).trans_le (Nat.mul_le_mul_right _ least)⟩
  rw [share, Nat.mul_comm, ← not_le, ← ceilDiv_le_iff_le_mul (by decide)]
  exact above.not_ge

theorem collateral_covers_iff_small_budget :
    let address : Address := .enterprise .testnet (.key .zero)
    let chain := FixedChain.toChain { utxos := [⟨⟨.zero, 1⟩, { address, value := .ofCoin 10000000 }⟩] }
    let b := run chain {} [
      .edit .disableEstimation, .edit (.setChangeAddress address), .edit (.addInputAddress address),
      .edit (.collectFrom
        ⟨⟨.zero, 0⟩, { address := .enterprise .testnet (.script .zero), value := .ofCoin 20000000 }⟩
        ⟨.unit, ⟨1000, 1000⟩⟩)]
    ∃ tx total, (b.finalize chain).1 = .ok tx ∧ tx.body.totalCollateral = some total ∧
      total.toNat = 876277 * 150 ⌈/⌉ 100 ∧ tx.body.fee.toNat * 150 ≤ total.toNat * 100 := by
  intro address chain b
  obtain ⟨tx, done⟩ := ok_of_isSome
    (show (b.finalize chain).1.toOption.isSome = true by decide +kernel)
  have within : (b.finalize chain).1.toOption.map
      (fun tx => decide (tx.body.fee ≤ ProtocolParams.maxTxFee {})) = some true := by
    decide +kernel
  rw [done] at within
  have bound : chain.maxTxFee = .ok (ProtocolParams.maxTxFee {}) := rfl
  have fetched : chain.params = .ok {} := rfl
  obtain ⟨total, secured, share, _, covers⟩ := collateral_covers_iff done fetched bound
    (by decide +kernel) (by decide +kernel) (by decide +kernel) (by decide)
  exact ⟨tx, total, done, secured, share, covers (of_decide_eq_true (Option.some.inj within))⟩

/-- Scripts that use a whole budget cost more than the bound. -/
theorem collateral_short_large_budget :
    let address : Address := .enterprise .testnet (.key .zero)
    let chain := FixedChain.toChain { utxos := [⟨⟨.zero, 1⟩, { address, value := .ofCoin 10000000 }⟩] }
    let b := run chain {} [
      .edit .disableEstimation, .edit (.setChangeAddress address), .edit (.addInputAddress address),
      .edit (.collectFrom
        ⟨⟨.zero, 0⟩, { address := .enterprise .testnet (.script .zero), value := .ofCoin 20000000 }⟩
        ⟨.unit, ⟨14000000, 10000000000⟩⟩)]
    ∃ tx total, (b.finalize chain).1 = .ok tx ∧ chain.maxTxFee = .ok (ProtocolParams.maxTxFee {}) ∧
      b.runsScripts = true ∧ b.collateral = [] ∧ b.collateralAmount = none ∧
      tx.body.totalCollateral = some total ∧ ¬ tx.body.fee.toNat * 150 ≤ total.toNat * 100 := by
  intro address chain b
  obtain ⟨tx, done⟩ := ok_of_isSome
    (show (b.finalize chain).1.toOption.isSome = true by decide +kernel)
  have secured : (b.finalize chain).1.toOption.map (·.body.totalCollateral) =
      some (some 1314416) := by decide +kernel
  have charged : (b.finalize chain).1.toOption.map
      (fun tx => decide (tx.body.fee.toNat * 150 ≤ 131441600)) = some false := by
    decide +kernel
  rw [done] at secured charged
  exact ⟨tx, 1314416, done, rfl, by decide +kernel, by decide +kernel, by decide +kernel,
    Option.some.inj secured, of_decide_eq_false (Option.some.inj charged)⟩

end ConwayTx.Builder
