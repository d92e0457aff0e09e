import ConwayTx.Chain.Fixed
import ConwayTx.Proofs.Builder.Collateral

/-!
# Signers of finalized transactions

A transaction is priced for the keys it names, those of required signers, withdrawals and
certificates, and for one more. That is enough just when no more than one key that unlocks its inputs
or its collateral is not named (`finalize_counts_signers`).
-/

namespace ConwayTx

/-! ### Keys that sign -/

/-- Keys that unlock outputs. -/
def Utxo.paymentKeys (utxos : List Utxo) : Finset KeyHash :=
  (utxos.filterMap fun u => u.address.paymentCredential?.bind Credential.keyHash?).toFinset

theorem Utxo.paymentKeys_perm {l₁ l₂ : List Utxo} (perm : l₁.Perm l₂) :
    paymentKeys l₁ = paymentKeys l₂ :=
  List.toFinset_eq_of_perm _ _ (perm.filterMap _)

/-- Implicit registrations and pool operations do not ask for a signature of a stake key. -/
def Certificate.isSigned : Certificate → Bool
  | stakeRegistration _ | poolRegistration _ | poolRetirement .. => false
  | _ => true

theorem Certificate.signer?_eq (c : Certificate) :
    c.signer? = if c.isSigned then c.credential? else none := by
  cases c <;> rfl

namespace TxBody

/-- Keys of withdrawals and of signed certificates. -/
def stakeKeys (body : TxBody) : Finset KeyHash :=
  ((body.withdrawals.keys.map StakeAddress.credential ++
    (body.certificates.filter Certificate.isSigned).filterMap Certificate.credential?).filterMap
      Credential.keyHash?).toFinset

/-- Keys that sign whatever is spent. -/
def namedKeys (body : TxBody) : Finset KeyHash := body.requiredSigners.keys.toFinset ∪ body.stakeKeys

/-- All keys that sign, where `unlocked` are the inputs and the collateral. -/
def signers (body : TxBody) (unlocked : List Utxo) : Finset KeyHash :=
  Utxo.paymentKeys unlocked ∪ body.namedKeys

theorem card_signers (body : TxBody) (unlocked : List Utxo) :
    (body.signers unlocked).card =
      (Utxo.paymentKeys unlocked \ body.namedKeys).card + body.namedKeys.card :=
  (Finset.card_sdiff_add_card _ _).symm

end TxBody

namespace Builder

open Outcome

/-! ### Named keys are counted -/

theorem card_namedKeys {b : Builder} {body : TxBody} (carries : b.Carries body) :
    body.namedKeys.card = b.requiredSigners.size + b.stakeSigners.size := by
  let keys := (b.withdrawals.keys.map StakeAddress.credential ++
    b.certificates.filterMap Certificate.signer?).filterMap Credential.keyHash?
  have stake : body.stakeKeys = keys.toFinset := by
    rw [TxBody.stakeKeys, carries.withdrawals, carries.certificates, List.filterMap_filter]
    simp only [keys, ← Certificate.signer?_eq]
  have others : b.stakeSigners.size = (body.stakeKeys \ b.requiredSigners.keys.toFinset).card := by
    rw [stake]
    refine (SortedMap.size_ofKeys _).trans (congrArg _ ?_)
    ext key
    rw [List.mem_toFinset, List.mem_filter, Finset.mem_sdiff, List.mem_toFinset, List.mem_toFinset,
      SortedMap.mem_keys, Bool.not_eq_true', Bool.not_eq_true]
  have required : b.requiredSigners.size = b.requiredSigners.keys.toFinset.card := by
    rw [List.toFinset_card_of_nodup (SortedMap.nodup_keys _), SortedMap.keys, List.length_map]
    rfl
  rw [others, required, TxBody.namedKeys, carries.requiredSigners, Finset.union_comm, Nat.add_comm]
  exact (Finset.card_sdiff_add_card _ _).symm

/-! ### The outputs behind the collateral -/

/-- None where no scripts run, else the given ones, else the one that was chosen. -/
inductive Secures (b : Builder) (chain : Chain) : List Utxo → Prop where
  | unneeded (native : b.runsScripts = false) : Secures b chain []
  | given (runs : b.runsScripts = true) (listed : b.collateral ≠ []) : Secures b chain b.collateral
  | chosen (runs : b.runsScripts = true) (unlisted : b.collateral = []) {u : Utxo}
      (supplied : b.Supplies chain u) : Secures b chain [u]

theorem secures_addCollateralTo {b : Builder} {chain : Chain} {start body : TxBody} {ground : Ground}
    {maxFee : Amount} {inputs : List Utxo} (runs : b.runsScripts = true)
    (h : b.addCollateralTo start ground maxFee inputs = .ok body)
    (pooled : ∀ u ∈ ground.pool, b.Supplies chain u) (spent : ∀ u ∈ inputs, b.Supplies chain u) :
    ∃ secured, b.Secures chain secured ∧ body.collateral = .ofKeys (secured.map Utxo.ref) := by
  unfold addCollateralTo at h
  split at h
  · rename_i empty
    obtain ⟨target, _, h⟩ := bind_ok h
    obtain ⟨choice, selected, h⟩ := bind_ok h
    obtain rfl := pure_ok h
    refine ⟨[choice.input], .chosen runs (List.isEmpty_iff.1 empty) ?_, rfl⟩
    rcases (Collateral.select_ok (mapError_ok selected)).1 with unused | last
    · exact pooled _ unused
    · exact spent _ (List.mem_filter.1 last).1
  · rename_i listed
    obtain rfl := pure_ok h
    exact ⟨b.collateral, .given runs fun empty => listed (by rw [empty]; rfl), rfl⟩

theorem Trace.secured {b : Builder} {chain : Chain} {balanced : Balanced}
    (t : Trace b chain balanced) (given : (b.preselected.map Utxo.ref).Nodup) :
    ∃ secured, b.Secures chain secured ∧
      balanced.tx.body.collateral = .ofKeys (secured.map Utxo.ref) := by
  obtain ⟨distinct, supplied⟩ := t.pool
  obtain ⟨_, chosen⟩ := selectInputs_ok t.selects given distinct
  rw [t.carries.2]
  have secures := t.secures
  split at secures
  · rename_i runs
    refine secures_addCollateralTo runs secures supplied fun u mem => ?_
    rcases chosen u mem with preselected | pooled
    · exact .inl preselected
    · exact supplied u pooled
  · rename_i native
    obtain same := pure_ok secures
    refine ⟨[], .unneeded (Bool.eq_false_iff.2 native), ?_⟩
    rw [← same]
    obtain ⟨_, _, drafted⟩ := bind_ok t.drafted
    obtain ⟨_, _, drafted⟩ := bind_ok drafted
    rw [← pure_ok drafted]
    rfl

/-! ### The count and the price -/

/-- The fee is estimated for the named keys and one more. So all that sign are counted just when no
more than one payment key of inputs and collateral is not named, and with all their witnesses the
transaction then fits and is paid for. -/
theorem finalize_counts_signers {b : Builder} {chain : Chain} {tx : Transaction}
    (reachable : Reachable b) (estimated : b.fee = none) (h : (b.finalize chain).1 = .ok tx) :
    ∃ params cost e spent secured, chain.params = .ok params ∧
      Fee.scripts (Redeemer.totalExUnits tx.witnesses.redeemers.values) params = .ok cost ∧
      Fee.estimate params cost (b.feePadding.getD b.config.feePadding) b.stakeSigners.size tx = .ok e ∧
      e.fee ≤ tx.body.fee ∧ (b.finalize chain).2.sortedInputs = .ok spent ∧
      b.Secures chain secured ∧ tx.body.collateral = .ofKeys (secured.map Utxo.ref) ∧
      let counted := Fee.signatures tx b.stakeSigners.size
      let needed := tx.body.signers (spent ++ secured)
      counted = 1 + tx.body.namedKeys.card ∧
      (needed.card ≤ counted ↔
        (Utxo.paymentKeys (spent ++ secured) \ tx.body.namedKeys).card ≤ 1) ∧
      (needed.card ≤ counted → ∀ keys : List KeyWitness, keys.length ≤ needed.card →
        ∃ size, (tx.withKeys keys).size = .ok size ∧ size ≤ params.maxTxSize.toNat ∧
          Fee.price params cost (b.feePadding.getD b.config.feePadding) size ≤ tx.body.fee) := by
  obtain ⟨params, cost, e, fetched, priced, estimates, fits, charged⟩ :=
    finalize_estimate reachable estimated h
  obtain ⟨balanced, _, built, rfl, after⟩ := finalize_ok h
  obtain ⟨t⟩ := build_ok built
  obtain ⟨secured, secures, collateral⟩ := t.secured reachable.nodup_preselected
  refine ⟨params, cost, e, _, secured, fetched, priced, estimates, charged, by rw [after]; rfl,
    secures, collateral, ?_⟩
  intro counted needed
  have count : counted = 1 + balanced.tx.body.namedKeys.card := by
    rw [card_namedKeys t.carries.1]
    show 1 + balanced.tx.body.requiredSigners.size + b.stakeSigners.size = _
    rw [t.carries.1.requiredSigners, Nat.add_assoc]
  refine ⟨count, ?_, fun enough keys few => ?_⟩
  · rw [count, balanced.tx.body.card_signers]
    omega
  · obtain ⟨size, measured, le, pays⟩ := Fee.estimate_covers estimates (few.trans enough)
    exact ⟨size, measured, le.trans fits, UInt64.le_trans pays charged⟩

/-- The primary signer, a stake key and a required signer are all counted. -/
theorem finalize_counts_signers_staked :
    let owner : KeyHash := ⟨List.replicate 28 1, rfl⟩
    let other : KeyHash := ⟨List.replicate 28 2, rfl⟩
    let address : Address := .base .testnet (.key .zero) (.key owner)
    let chain := FixedChain.toChain {}
    let b := run chain {} [
      .edit (.addInput ⟨⟨.zero, 0⟩, { address, value := .ofCoin 10000000 }⟩),
      .edit (.setChangeAddress address), .edit (.addWithdrawal address 500000 none),
      .edit (.addRequiredSigner other), .edit (.addPayment { address, lovelace := 2000000 })]
    ∃ tx spent size, (b.finalize chain).1 = .ok tx ∧ (b.finalize chain).2.sortedInputs = .ok spent ∧
      Fee.signatures tx b.stakeSigners.size = 3 ∧ (tx.body.signers spent).card = 3 ∧
      (tx.withKeys (List.replicate 3 .placeholder)).size = .ok size ∧ size ≤ 16384 ∧
      Fee.price {} 0 0 size ≤ tx.body.fee := by
  intro owner other address chain b
  have reachable : Reachable b := Reachable.fresh.run chain _
  obtain ⟨tx, done⟩ := ok_of_isSome
    (show (b.finalize chain).1.toOption.isSome = true by decide +kernel)
  obtain ⟨params, cost, e, spent, secured, same, priced, _, _, listed, secures, _, count, _, pays⟩ :=
    finalize_counts_signers reachable (show b.fee = none from rfl) done
  cases same
  obtain rfl : secured = [] := by
    have native : b.runsScripts = false := by decide +kernel
    cases secures with
    | unneeded _ => rfl
    | given runs _ => cases native.symm.trans runs
    | chosen runs _ _ => cases native.symm.trans runs
  rw [List.append_nil] at pays
  have three : (b.finalize chain).2.sortedInputs.toOption.map
      (fun spent => (b.finalize chain).1.toOption.map fun tx => (tx.body.signers spent).card) =
        some (some 3) := by decide +kernel
  have named : (b.finalize chain).1.toOption.map
      (fun tx => (Fee.signatures tx b.stakeSigners.size, Fee.scripts (Redeemer.totalExUnits
        tx.witnesses.redeemers.values) {})) = some (3, .ok 0) := by decide +kernel
  rw [done] at three named
  rw [show (b.finalize chain).2.sortedInputs = .ok spent from listed] at three
  replace three : (tx.body.signers spent).card = 3 := Option.some.inj (Option.some.inj three)
  obtain ⟨counted, scripts⟩ := Prod.mk.inj (Option.some.inj named)
  obtain rfl : cost = 0 := Except.ok.inj (priced.symm.trans scripts)
  obtain ⟨size, measured, fits, covers⟩ := pays (by rw [three, counted])
    (List.replicate 3 .placeholder) (by rw [three]; decide)
  exact ⟨tx, spent, size, done, listed, counted, three, measured, fits, covers⟩

/-- Inputs of two addresses take two signatures, and the fee is for one. -/
theorem signers_uncounted_two_addresses :
    let first : Address := .enterprise .testnet (.key .zero)
    let second : Address := .enterprise .testnet (.key ⟨List.replicate 28 1, rfl⟩)
    let chain := FixedChain.toChain {}
    let b := run chain {} [
      .edit (.addInput ⟨⟨.zero, 0⟩, { address := first, value := .ofCoin 5000000 }⟩),
      .edit (.addInput ⟨⟨.zero, 1⟩, { address := second, value := .ofCoin 5000000 }⟩),
      .edit (.setChangeAddress first), .edit (.addPayment { address := first, lovelace := 2000000 })]
    let keys : List KeyWitness := [.placeholder, ⟨⟨List.replicate 32 1, rfl⟩, .zero⟩]
    ∃ tx spent size, b.fee = none ∧ (b.finalize chain).1 = .ok tx ∧
      (b.finalize chain).2.sortedInputs = .ok spent ∧ tx.body.collateral = ∅ ∧
      Fee.signatures tx b.stakeSigners.size = 1 ∧ (tx.body.signers spent).card = 2 ∧
      (tx.withKeys keys).size = .ok size ∧ ¬ Fee.price {} 0 0 size ≤ tx.body.fee := by
  intro first second chain b keys
  obtain ⟨tx, done⟩ := ok_of_isSome
    (show (b.finalize chain).1.toOption.isSome = true by decide +kernel)
  obtain ⟨balanced, _, built, rfl, after⟩ := finalize_ok done
  have order : (balanced.inputs.mergeSort fun u v => (compare u.ref v.ref).isLE).Perm
      balanced.inputs := List.mergeSort_perm _ _
  have two : (b.build chain).toOption.map (fun r => (r.tx.body.signers r.inputs).card) = some 2 := by
    decide +kernel
  have short : (b.build chain).toOption.map (fun r => (r.tx.withKeys keys).size.toOption.map
      fun size => decide (Fee.price {} 0 0 size ≤ r.tx.body.fee)) = some (some false) := by
    decide +kernel
  have one : (b.build chain).toOption.map (fun r => (r.tx.body.collateral,
      Fee.signatures r.tx b.stakeSigners.size)) = some (∅, 1) := by decide +kernel
  rw [built] at two short one
  obtain ⟨none, counted⟩ := Prod.mk.inj (Option.some.inj one)
  obtain ⟨size, measured, charged⟩ := Option.map_eq_some_iff.1 (Option.some.inj short)
  refine ⟨balanced.tx, _, size, rfl, done, by rw [after]; rfl, none, counted, ?_, ?_,
    of_decide_eq_false charged⟩
  · rw [TxBody.signers, Utxo.paymentKeys_perm order]
    exact Option.some.inj two
  · cases fits : (balanced.tx.withKeys keys).size with
    | error failure => rw [fits] at measured; cases measured
    | ok measured' => rw [fits] at measured; cases measured; rfl

end Builder

end ConwayTx
