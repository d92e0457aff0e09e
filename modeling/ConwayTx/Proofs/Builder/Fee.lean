import ConwayTx.Chain.Fixed
import ConwayTx.Proofs.Builder.Build
import ConwayTx.Proofs.Draft
import ConwayTx.Proofs.Fee
import ConwayTx.Proofs.Redeemer.Layout

/-!
# Fees of finalized transactions

A finalized transaction is priced with placeholders for its signatures. Whatever signatures take
their place, it stays within the largest size and pays for itself (`finalize_pays`).
-/

namespace ConwayTx.Builder

open Outcome

/-! ### Signing -/

/-- Edits that only add key witnesses. -/
def Edit.IsSigning : Edit → Prop
  | addKeyWitness _ | sign | signWithSeed _ => True
  | _ => False

theorem signing_ok {chain : Chain} {b next : Builder} {e : Edit} (signing : e.IsSigning)
    (h : Edit.apply chain b e = .ok next) : ∃ witness, b.addKeyWitness witness = .ok next := by
  cases e with
  | addKeyWitness witness => exact ⟨witness, h⟩
  | sign => exact sign_ok h
  | signWithSeed seed => exact signWithSeed_ok h
  | _ => cases signing

/-- Signatures change nothing but the keys. -/
theorem stage_run_signing {b : Builder} {tx : Transaction} {inputs : List Utxo} {edits : List Edit}
    (chain : Chain) (stage : b.stage = .finalized tx inputs)
    (signing : ∀ e ∈ edits, e.IsSigning) :
    ∃ keys, (run chain b (edits.map .edit)).stage = .finalized (tx.withKeys keys) inputs := by
  induction edits generalizing b tx with
  | nil => exact ⟨tx.witnesses.keys, stage⟩
  | cons e rest ih =>
    have others : ∀ e ∈ rest, e.IsSigning := fun e mem => signing e (.tail _ mem)
    show ∃ keys, (run chain (step chain b (.edit e)).2 (rest.map .edit)).stage = _
    rw [step]
    split
    · rename_i next applied
      obtain ⟨witness, added⟩ := signing_ok (signing e (.head _)) applied
      obtain ⟨tx', inputs', same, rfl⟩ := addKeyWitness_ok added
      cases stage.symm.trans same
      have signed : Stage.finalized { tx with witnesses := tx.witnesses.addKey witness } inputs =
          .finalized (tx.withKeys (tx.witnesses.addKey witness).keys) inputs := by
        rw [Transaction.withKeys, ← WitnessSet.addKey_eq_withKeys]
      exact @ih _ (tx.withKeys (tx.witnesses.addKey witness).keys) signed others
    · exact ih stage others

/-! ### Prices -/

/-- Every item of the layout is a part of the transaction, so its size bounds their number. -/
theorem small_layout {tx : Transaction} {size : Nat} (h : tx.size = .ok size)
    (bound : size < UInt32.size) (canonical : (tx.body.mint.getD ∅).Canonical) :
    (RedeemerLayout.ofBody tx.body).Small := by
  obtain ⟨inputs, withdrawals, mint⟩ := Transaction.count_le_size h
  refine ⟨by exact inputs.trans bound.le, by exact (mint canonical).trans bound.le, ?_⟩
  show (tx.body.withdrawals.keys.map (·.credential)).length ≤ UInt32.size
  rw [List.length_map]
  exact withdrawals.trans bound.le

/-- Placing the redeemers of a draft leaves their total. -/
theorem totalExUnits_of_assemble {d : Draft} {inputs : List Utxo} {change : List TxOutput}
    {fee : Amount} {models : CostModels} {tx : Transaction}
    (h : d.assemble inputs change fee models = .ok tx)
    (small : (RedeemerLayout.ofBody tx.body).Small) :
    Redeemer.totalExUnits tx.witnesses.redeemers.values = d.totalExUnits := by
  obtain ⟨body, assigned, _⟩ := Draft.assemble_ok h
  rw [body] at small
  obtain ⟨placed, _, perm, _, values⟩ := RedeemerLayout.assign_ok small assigned
  have same := perm.map Prod.snd
  rw [values] at same
  exact Redeemer.totalExUnits_perm same

/-- The estimate that ends the rounds: of the transaction that comes out, within the largest size and
within the fee. -/
theorem finalize_estimate {b : Builder} {chain : Chain} {tx : Transaction} (reachable : Reachable b)
    (estimated : b.fee = none) (h : (b.finalize chain).1 = .ok tx) :
    ∃ params cost e, chain.params = .ok params ∧
      Fee.scripts (Redeemer.totalExUnits tx.witnesses.redeemers.values) params = .ok cost ∧
      Fee.estimate params cost (b.feePadding.getD b.config.feePadding) b.stakeSigners.size tx = .ok e ∧
      e.size ≤ params.maxTxSize.toNat ∧ e.fee ≤ tx.body.fee := by
  obtain ⟨balanced, _, built, rfl, _⟩ := finalize_ok h
  obtain ⟨t⟩ := build_ok built
  obtain ⟨terms, fee, demand, change, r, of, ran, accepted, rfl, _, _⟩ :=
    t.accepted reachable.nodup_preselected
  obtain ⟨mint, _, _, stake⟩ := t.round of ran
  have estimates := ran.estimated
  rw [Balancer.estimate, stake] at estimates
  refine ⟨t.ground.params, terms.scriptCost, r.estimate, t.params, ?_, estimates, accepted.fits, ?_⟩
  · obtain ⟨size, measured, le, _⟩ := @Fee.estimate_covers _ _ _ _ _ _ estimates [] (Nat.zero_le _)
    have canonical : (r.tx.body.mint.getD ∅).Canonical := by
      rw [mint]
      exact reachable.canonical_mint
    have fits : size < UInt32.size := (le.trans accepted.fits).trans_lt (UInt32.toNat_lt_size _)
    have small := small_layout measured fits canonical
    have total := totalExUnits_of_assemble ran.assembled small
    rw [of.same] at total
    rw [show Redeemer.totalExUnits r.tx.witnesses.redeemers.values = _ from total]
    exact of.scriptCost
  · have charged : fee ≤ r.tx.body.fee := by
      rw [(Draft.assemble_ok ran.assembled).1, UInt64.le_iff_toNat_le]
      show fee.toNat ≤ (Amount.clamp (fee.toNat + change.dust.toNat)).toNat
      have := Amount.toNat_le_largest fee
      rw [Amount.toNat_clamp]
      omega
    have covered : r.estimate.fee ≤ fee :=
      accepted.covered.resolve_left (by rw [show (b.balancer _ _).fixedFee = none from estimated]; simp)
    exact UInt64.le_trans covered charged

/-- With no more keys than were counted, a finalized transaction fits, and its fee covers its size,
its scripts and the padding. -/
theorem finalize_price {b : Builder} {chain : Chain} {tx : Transaction} {keys : List KeyWitness}
    (reachable : Reachable b) (estimated : b.fee = none) (h : (b.finalize chain).1 = .ok tx)
    (few : keys.length ≤ 1 + b.requiredSigners.size + b.stakeSigners.size) :
    ∃ params size cost, chain.params = .ok params ∧ (tx.withKeys keys).size = .ok size ∧
      size ≤ params.maxTxSize.toNat ∧
      Fee.scripts (Redeemer.totalExUnits tx.witnesses.redeemers.values) params = .ok cost ∧
      Fee.price params cost (b.feePadding.getD b.config.feePadding) size ≤ tx.body.fee := by
  obtain ⟨params, cost, e, fetched, priced, estimates, fits, charged⟩ :=
    finalize_estimate reachable estimated h
  obtain ⟨balanced, _, built, rfl, _⟩ := finalize_ok h
  obtain ⟨t⟩ := build_ok built
  have counted : keys.length ≤ Fee.signatures balanced.tx b.stakeSigners.size := by
    rw [Fee.signatures, t.carries.1.requiredSigners]
    exact few
  obtain ⟨size, measured, le, pays⟩ := Fee.estimate_covers estimates counted
  exact ⟨params, size, cost, fetched, measured, le.trans fits, priced, UInt64.le_trans pays charged⟩

/-- Whoever signs, if no more do than were counted, the transaction that was returned fits and
covers its size, its scripts and the padding. -/
theorem finalize_pays {b : Builder} {chain later : Chain} {tx signed : Transaction}
    {edits : List Edit} (reachable : Reachable b) (estimated : b.fee = none)
    (h : (b.finalize chain).1 = .ok tx) (signing : ∀ e ∈ edits, e.IsSigning)
    (after : (run later (b.finalize chain).2 (edits.map .edit)).tx = .ok signed)
    (few : signed.witnesses.keys.length ≤ 1 + b.requiredSigners.size + b.stakeSigners.size) :
    ∃ params size cost, chain.params = .ok params ∧ signed.size = .ok size ∧
      size ≤ params.maxTxSize.toNat ∧ signed.body = tx.body ∧
      Fee.scripts (Redeemer.totalExUnits signed.witnesses.redeemers.values) params = .ok cost ∧
      Fee.price params cost (b.feePadding.getD b.config.feePadding) size ≤ signed.body.fee := by
  obtain ⟨balanced, _, _, rfl, final⟩ := finalize_ok h
  obtain ⟨keys, stage⟩ := stage_run_signing later
    (show ((b.finalize chain).2).stage = .finalized balanced.tx balanced.inputs by rw [final])
    signing
  obtain rfl : signed = balanced.tx.withKeys keys := by
    rw [Builder.tx, stage] at after
    cases after
    rfl
  obtain ⟨params, size, cost, fetched, measured, fits, priced, pays⟩ :=
    @finalize_price b chain balanced.tx keys reachable estimated h few
  exact ⟨params, size, cost, fetched, measured, fits, rfl, priced, pays⟩

theorem finalize_pays_with_signature :
    let address : Address := .enterprise .testnet (.key .zero)
    let chain := FixedChain.toChain {}
    let b := run chain {} [
      .edit (.addInput ⟨⟨.zero, 0⟩, { address, value := .ofCoin 10000000 }⟩),
      .edit (.setChangeAddress address), .edit (.addPayment { address, lovelace := 2000000 })]
    let after := run chain (b.finalize chain).2 [.edit (.addKeyWitness .placeholder)]
    ∃ tx signed size, (b.finalize chain).1 = .ok tx ∧ after.tx = .ok signed ∧
      signed.witnesses.keys.length = 1 ∧ signed.size = .ok size ∧ size ≤ 16384 ∧
      Fee.price {} 0 0 size ≤ signed.body.fee := by
  intro address chain b after
  have reachable : Reachable b := Reachable.fresh.run chain _
  have estimated : b.fee = none := rfl
  have signing : ∀ e ∈ [Edit.addKeyWitness .placeholder], e.IsSigning := by
    simp [Edit.IsSigning]
  obtain ⟨tx, done⟩ := ok_of_isSome
    (show (b.finalize chain).1.toOption.isSome = true by decide +kernel)
  obtain ⟨signed, final⟩ := ok_of_isSome (show after.tx.toOption.isSome = true by decide +kernel)
  have keys : after.tx.toOption.map (fun signed => signed.witnesses.keys.length) = some 1 := by
    decide +kernel
  have scripts : after.tx.toOption.map (fun signed => Fee.scripts (Redeemer.totalExUnits
      signed.witnesses.redeemers.values) {}) = some (.ok 0) := by decide +kernel
  rw [final] at keys scripts
  have one : signed.witnesses.keys.length = 1 := Option.some.inj keys
  obtain ⟨params, size, cost, same, measured, fits, _, priced, pays⟩ :=
    finalize_pays reachable estimated done signing final (by rw [one]; decide)
  cases same
  obtain rfl : cost = 0 := Except.ok.inj (priced.symm.trans (Option.some.inj scripts))
  exact ⟨tx, signed, size, done, final, one, measured, fits, pays⟩

end ConwayTx.Builder
