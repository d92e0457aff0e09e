import ConwayTx.Proofs.Balance.Dust
import ConwayTx.Proofs.Builder.Outputs
import ConwayTx.Proofs.Builder.Spending

/-!
# Fixed fees

A fee that is set is what a finalized transaction pays, unless dust comes on top of it
(`finalize_fixed`). Then all outputs are payments, and no lovelace that is left in ADA-only outputs of
the pool could have lifted the dust to an output of its own.
-/

namespace ConwayTx.Builder

open Outcome

variable {b : Builder} {chain : Chain}

/-- The ADA-only outputs of a pool that a body neither spends nor puts up as collateral. -/
def spareAda (pool : List Utxo) (body : TxBody) : List Utxo :=
  pool.filter fun u =>
    u.isAdaOnly && !body.inputs.contains u.ref && !body.collateral.contains u.ref

theorem filter_spare {pool inputs : List Utxo} {body : TxBody}
    (spent : ∀ ref, body.inputs.contains ref = true ↔ ref ∈ inputs.map Utxo.ref) :
    (Balancer.withoutRefs (Selection.unused pool body.collateral) inputs).filter Utxo.isAdaOnly =
      spareAda pool body := by
  have taken (u : Utxo) : inputs.any (·.ref = u.ref) = body.inputs.contains u.ref := by
    rw [Bool.eq_iff_iff, spent, List.any_eq_true, List.mem_map]
    simp only [decide_eq_true_eq]
  unfold Balancer.withoutRefs Selection.unused spareAda
  rw [List.filter_filter, List.filter_filter]
  refine List.filter_congr fun u _ => ?_
  rw [taken, Bool.and_assoc]

/-- A fixed fee is charged as it is, or it grows by dust: then nothing but the payments is paid out,
and with all lovelace that ADA-only outputs of the pool still hold, what the fee has grown by is below
the minimum of an output to the change address. -/
theorem finalize_fixed {fee : Amount} {tx : Transaction} (reachable : Reachable b)
    (fixed : b.fee = some fee) (h : (b.finalize chain).1 = .ok tx) :
    tx.body.fee = fee ∨
    ∃ params address pool dust minimum, chain.params = .ok params ∧ b.changeTarget = .ok address ∧
      b.loadPool chain = .ok pool ∧ 0 < dust ∧ tx.body.fee.toNat = fee.toNat + dust.toNat ∧
      List.Forall₂ (Payment.Delivered params.coinsPerUtxoByte) b.payments tx.body.outputs ∧
      (Change.output address (.ofCoin dust)).minCoin params.coinsPerUtxoByte = .ok minimum ∧
      dust.toNat + Amount.total ((spareAda pool tx.body).map Utxo.coin) < minimum.toNat := by
  obtain ⟨balanced, _, built, rfl, _⟩ := finalize_ok h
  obtain ⟨t⟩ := build_ok built
  obtain ⟨distinct, _⟩ := t.pool
  obtain ⟨refs, _⟩ := selectInputs_ok t.selects reachable.nodup_preselected distinct
  have pool : (b.balancer t.ground t.body.collateral).pool.Sublist t.ground.pool :=
    List.filter_sublist
  obtain ⟨change, charged, assembled, sum, resort⟩ :=
    Balancer.balance_fixed (b := b.balancer t.ground t.body.collateral) fixed refs
      (distinct.sublist (pool.map _)) t.balances
  obtain ⟨body, _⟩ := Draft.assemble_ok assembled
  have amount : balanced.tx.body.fee = charged := by rw [body]
  by_cases none : change.dust = 0
  · refine .inl (UInt64.toNat_inj.1 ?_)
    rw [amount, sum, none]
    rfl
  · obtain ⟨alone, minimum, measured, below⟩ := resort none
    have inputs : balanced.tx.body.inputs = .ofKeys (balanced.inputs.map Utxo.ref) := by
      have unspent : t.body.inputs = ∅ := by
        rw [t.body_eq]
        exact (draft_ok t.drafted).1
      rw [body]
      show t.body.inputs.addKeys _ = _
      rw [unspent]
      rfl
    have spent (ref : TxIn) : balanced.tx.body.inputs.contains ref = true ↔
        ref ∈ balanced.inputs.map Utxo.ref := by
      rw [inputs, SortedMap.contains_ofKeys]
    have outputs : balanced.tx.body.outputs = t.draft.body.outputs := by
      rw [body, alone, t.body_eq]
      exact List.append_nil _
    have rest : (Balancer.withoutRefs (b.balancer t.ground t.body.collateral).pool
        balanced.inputs).filter Utxo.isAdaOnly = spareAda t.ground.pool balanced.tx.body := by
      rw [← filter_spare spent, t.carries.2]
      rfl
    rw [rest] at below
    rw [amount, outputs]
    exact .inr ⟨t.ground.params, t.ground.changeAddress, t.ground.pool, change.dust, minimum,
      t.params, t.changeAddress, (ground_ok t.grounded).2.2, UInt64.pos_iff_ne_zero.2 none, sum,
      (draft_outputs t.drafted).1, measured, below⟩

theorem finalize_fixed_dust :
    let address : Address := .enterprise .testnet (.key .zero)
    let holding (index : UInt32) (coin : Amount) : Utxo :=
      ⟨⟨.zero, index⟩, { address, value := .ofCoin coin }⟩
    let chain := FixedChain.toChain { utxos := [holding 1 100000] }
    let b := run chain {} [
      .edit (.addInput (holding 0 2900000)), .edit (.addInputAddress address),
      .edit (.setChangeAddress address),
      .edit (.addPayment { address, lovelace := 2000000 }), .edit (.setFee 250000)]
    ∃ tx dust minimum, (b.finalize chain).1 = .ok tx ∧ tx.body.fee = 900000 ∧
      dust.toNat = 650000 ∧ tx.body.outputs.length = 1 ∧
      Amount.total ((spareAda [holding 1 100000] tx.body).map Utxo.coin) = 100000 ∧
      (Change.output address (.ofCoin dust)).minCoin 4310 = .ok minimum ∧ 750000 < minimum.toNat := by
  intro address holding chain b
  obtain ⟨tx, done⟩ := ok_of_isSome
    (show (b.finalize chain).1.toOption.isSome = true by decide +kernel)
  have shown : (b.finalize chain).1.toOption.map (fun tx => (tx.body.fee,
      Amount.total ((spareAda [holding 1 100000] tx.body).map Utxo.coin))) =
      some (900000, 100000) := by decide +kernel
  rw [done] at shown
  obtain ⟨fee, spare⟩ := Prod.mk.inj (Option.some.inj shown)
  have pooled : b.loadPool chain = .ok [holding 1 100000] := rfl
  rcases finalize_fixed (Reachable.fresh.run chain _ : Reachable b) rfl done with
    same | ⟨params, target, pool, dust, minimum, fetched, changed, loaded, _, sum, paid, measured,
      below⟩
  · rw [same] at fee
    cases fee
  · cases fetched
    cases changed
    cases loaded.symm.trans pooled
    rw [fee] at sum
    replace sum : 900000 = 250000 + dust.toNat := sum
    rw [spare] at below
    refine ⟨tx, dust, minimum, done, fee, by omega, paid.length_eq.symm, spare, measured, ?_⟩
    omega

/-- The only output of the pool is spent, and what it has beyond payment and fee is too little for
change. -/
theorem finalize_fixed_exceeded :
    let address : Address := .enterprise .testnet (.key .zero)
    let chain := FixedChain.toChain { utxos := [⟨⟨.zero, 0⟩, { address, value := .ofCoin 2900000 }⟩] }
    let b := run chain {} [
      .edit (.addInputAddress address), .edit (.setChangeAddress address),
      .edit (.addPayment { address, lovelace := 2000000 }), .edit (.setFee 250000)]
    b.fee = some 250000 ∧ ∃ tx, (b.finalize chain).1 = .ok tx ∧ tx.body.fee ≠ 250000 := by
  intro address chain b
  obtain ⟨tx, done⟩ := ok_of_isSome
    (show (b.finalize chain).1.toOption.isSome = true by decide +kernel)
  have fee : (b.finalize chain).1.toOption.map (·.body.fee) = some 900000 := by decide +kernel
  rw [done] at fee
  replace fee : tx.body.fee = 900000 := Option.some.inj fee
  refine ⟨rfl, tx, done, fun same => ?_⟩
  rw [fee] at same
  cases same

end ConwayTx.Builder
