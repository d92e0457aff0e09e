import ConwayTx.Builder.Call
import ConwayTx.Chain.Fixed
import ConwayTx.Proofs.Builder.Reachable

/-!
# Calls that are refused

Every call asks before it writes. In place it therefore comes to what its edit of a whole builder
gives (`call_eq`, `step_eq`), and a refusal leaves the builder it was made on (`refused_keeps`).
-/

namespace ConwayTx.Builder

/-- What a call comes to whose edit has this result. -/
def settled (b : Builder) : Except BuildError Builder → EStateM.Result BuildError Builder Unit
  | .ok next => .ok () next
  | .error error => .error error b

theorem settled_error {b after : Builder} {error : BuildError} {result : Except BuildError Builder}
    (h : settled b result = .error error after) : after = b := by
  cases result with
  | ok next => cases h
  | error _ =>
    cases h
    rfl

namespace Call

variable {b : Builder}

theorem get_bind {ε α : Type} (rest : Builder → EStateM ε Builder α) :
    (get >>= rest) b = rest b b := rfl

/-- A question before everything else. -/
theorem lift_bind {α : Type} {answer : Except BuildError α} {call : α → Call Unit}
    {edit : α → Except BuildError Builder} (rest : ∀ a, call a b = settled b (edit a)) :
    (liftM answer >>= call : Call Unit) b = settled b (answer >>= edit) := by
  cases answer with
  | error error => rfl
  | ok a => exact rest a

/-- A write after everything else, which cannot fail any more. -/
theorem bind_modify {call : Call Unit} {edited : Except BuildError Builder}
    {write : Builder → Builder} (before : call b = settled b edited) :
    (do call; modify write : Call Unit) b = settled b (do return write (← edited)) := by
  show EStateM.bind call (fun _ => modify write) b = _
  rw [EStateM.bind, before]
  cases edited <;> rfl

theorem addPayment_eq (p : Payment) : addPayment p b = settled b (b.addPayment p) :=
  lift_bind fun _ => rfl

theorem addPaymentWithDatumHash_eq (p : Payment) (datum : PlutusData) :
    addPaymentWithDatumHash p datum b = settled b (b.addPaymentWithDatumHash p datum) :=
  bind_modify (addPayment_eq _)

/-- The rest of the output is known, and has its address, before the output is spent. -/
theorem consumeUtxo_eq (u : Utxo) (payments : List Payment) :
    consumeUtxo u payments b = settled b (b.consumeUtxo u payments) :=
  lift_bind fun _ => lift_bind fun _ => lift_bind fun _ => rfl

theorem updateRedeemers_eq (updates : PendingRedeemers) :
    updateRedeemers updates b = settled b (b.updateRedeemers updates) := by
  unfold updateRedeemers Builder.updateRedeemers
  rw [get_bind]
  cases updates.keys.find? fun target => !b.redeemers.contains target <;> rfl

theorem mintAssets_eq (u : AssetUnit) : mintAssets u b = settled b (b.mintAssets u) :=
  lift_bind fun _ => rfl

theorem mintAssetsWithRedeemer_eq (u : AssetUnit) (redeemer : Redeemer) :
    mintAssetsWithRedeemer u redeemer b = settled b (b.mintAssetsWithRedeemer u redeemer) :=
  lift_bind fun _ => bind_modify (mintAssets_eq u)

theorem addWithdrawal_eq (address : Address) (amount : Amount) (redeemer : Option Redeemer) :
    addWithdrawal address amount redeemer b =
      settled b (b.addWithdrawal address amount redeemer) := by
  refine lift_bind fun stake => ?_
  cases redeemer <;> rfl

theorem addPaymentSigner_eq (address : Address) :
    addPaymentSigner address b = settled b (b.addPaymentSigner address) := by
  unfold addPaymentSigner Builder.addPaymentSigner
  cases address.paymentCredential?.bind Credential.keyHash? <;> rfl

theorem addStakeSigner_eq (address : Address) :
    addStakeSigner address b = settled b (b.addStakeSigner address) := by
  unfold addStakeSigner Builder.addStakeSigner
  cases address.stakeCredential?.bind Credential.keyHash? <;> rfl

theorem setMetadata_eq (metadata : Metadata) :
    setMetadata metadata b = settled b (b.setMetadata metadata) := by
  unfold setMetadata Builder.setMetadata
  cases metadata.outside? <;> rfl

theorem addMetadata_eq (label : UInt64) (datum : Metadatum) :
    addMetadata label datum b = settled b (b.addMetadata label datum) := by
  unfold addMetadata Builder.addMetadata
  cases datum.isWithinLimits <;> rfl

theorem addKeyWitness_eq (witness : KeyWitness) :
    addKeyWitness witness b = settled b (b.addKeyWitness witness) := by
  unfold addKeyWitness Builder.addKeyWitness
  rw [get_bind]
  cases b.stage <;> rfl

theorem signWith_eq (signer : TxId → Except BuildError KeyWitness) :
    signWith signer b = settled b (do b.addKeyWitness (← signer (← b.txHash))) :=
  lift_bind fun _ => lift_bind fun witness => addKeyWitness_eq witness

theorem sign_eq : sign b = settled b b.sign := by
  unfold sign Builder.sign
  rw [get_bind]
  cases b.wallet with
  | none => rfl
  | some wallet =>
    refine lift_bind fun hash => ?_
    show (liftM ((wallet.sign hash).mapError _) >>= addKeyWitness : Call Unit) b = _
    cases wallet.sign hash with
    | error error => rfl
    | ok witness => exact addKeyWitness_eq witness

theorem signWithSeed_eq (seed : Digest 32) :
    signWithSeed seed b = settled b (b.signWithSeed seed) :=
  signWith_eq _

theorem finalize_eq (chain : Chain) : outcome (finalize chain b) = b.finalize chain := by
  unfold finalize Builder.finalize
  rw [get_bind]
  cases b.stage with
  | finalized tx inputs => rfl
  | failed => rfl
  | collecting =>
    cases b.build chain with
    | ok balanced => rfl
    | error failure => cases failure <;> rfl

end Call

/-! ### Operations -/

theorem call_eq (chain : Chain) (b : Builder) (e : Edit) :
    e.call chain b = settled b (e.apply chain b) := by
  cases e with
  | addInputAddressText text | setChangeAddressText text => exact Call.lift_bind fun _ => rfl
  | addPaymentToText text lovelace units => exact Call.lift_bind fun _ => Call.addPayment_eq _
  | addPayment p => exact Call.addPayment_eq p
  | addPaymentWithDatumHash p datum => exact Call.addPaymentWithDatumHash_eq p datum
  | consumeUtxo u payments => exact Call.consumeUtxo_eq u payments
  | updateRedeemers updates => exact Call.updateRedeemers_eq updates
  | mintAssets u => exact Call.mintAssets_eq u
  | mintAssetsWithRedeemer u redeemer => exact Call.mintAssetsWithRedeemer_eq u redeemer
  | addWithdrawal address amount redeemer => exact Call.addWithdrawal_eq address amount redeemer
  | addReferenceInputByRef ref => exact Call.lift_bind fun _ => rfl
  | addPaymentSigner address => exact Call.addPaymentSigner_eq address
  | addStakeSigner address => exact Call.addStakeSigner_eq address
  | setMetadata metadata => exact Call.setMetadata_eq metadata
  | addMetadata label datum => exact Call.addMetadata_eq label datum
  | addStakeCertificate certificate given => exact Call.lift_bind fun _ => rfl
  | addKeyWitness witness => exact Call.addKeyWitness_eq witness
  | sign => exact Call.sign_eq
  | signWithSeed seed => exact Call.signWithSeed_eq seed
  -- The others have nothing to ask.
  | setWallet | setConfig | addInputAddress | loadUtxos | addInput | setChangeAddress | collectFrom
  | attachDatum | attachScript | addReferenceInput | addRequiredSigner | setTtl | setValidityStart
  | setFee | setFeePadding | setCollateralAmount | addCollateral | disableEstimation
  | addCertificate => rfl

/-- Going on after a refusal with the builder from before it is no choice of `step`: it is the one
that the call has left. -/
theorem step_eq (chain : Chain) (b : Builder) (operation : Operation) :
    step chain b operation = Call.outcome (operation.call chain b) := by
  cases operation with
  | edit e =>
    show _ = Call.outcome (EStateM.adaptExcept Failure.refused (e.call chain) b)
    rw [EStateM.adaptExcept, call_eq, step]
    cases e.apply chain b <;> rfl
  | finalize =>
    show ((b.finalize chain).1.map fun _ => (), (b.finalize chain).2) =
      Call.outcome (EStateM.map _ (Call.finalize chain) b)
    rw [EStateM.map, ← Call.finalize_eq]
    cases Call.finalize chain b <;> rfl

/-- Operations in place do what `step` says. One that is refused leaves the builder as it was,
whichever of arguments, chain, wallet and signer it fails on, and a `finalize` that fails moves the
stage and nothing else. -/
theorem refused_keeps (chain : Chain) (b : Builder) :
    (∀ operation, step chain b operation = Call.outcome (operation.call chain b)) ∧
      (∀ (e : Edit) error after, e.call chain b = .error error after → after = b) ∧
      (∀ signer error after, Call.signWith signer b = .error error after → after = b) ∧
      ∀ failure after, Call.finalize chain b = .error failure after →
        after = { b with stage := after.stage } := by
  refine ⟨step_eq chain b, fun e error after h => ?_, fun signer error after h => ?_,
    fun failure after h => ?_⟩
  · exact settled_error ((call_eq chain b e).symm.trans h)
  · exact settled_error ((Call.signWith_eq signer).symm.trans h)
  · have ended : b.finalize chain = (.error failure, after) := by
      rw [← Call.finalize_eq]
      exact congrArg Call.outcome h
    have same := finalize_stage b chain
    rwa [ended] at same

theorem refused_keeps_halfway :
    let address : Address := .enterprise .testnet (.key .zero)
    let chain := FixedChain.toChain {}
    let u : Utxo := ⟨⟨.zero, 0⟩, { address, value := .ofCoin 5 }⟩
    let spend := Edit.consumeUtxo u [{ address, lovelace := 2 }]
    let signer : TxId → Except BuildError KeyWitness := fun _ => .error (.backend .noWallet)
    let b : Builder := { payments := [{ address, lovelace := 1 }] }
    let done : Builder := { b with stage := .finalized ⟨{}, {}, none, true⟩ [u] }
    ∃ spent unsigned ended,
      spend.call chain b = .error .noChangeAddress spent ∧ spent = b ∧
      Call.signWith signer done = .error (.backend .noWallet) unsigned ∧ unsigned = done ∧
      Call.finalize chain b = .error (.refused .noChangeAddress) ended ∧
      ended = { b with stage := ended.stage } ∧ ended.stage = .failed := by
  intro address chain u spend signer b done
  have noRest : spend.call chain b = .error .noChangeAddress b := by
    dsimp +zetaDelta only
    rfl
  have noWitness : Call.signWith signer done = .error (.backend .noWallet) done := rfl
  have noBuild : Call.finalize chain b =
      .error (.refused .noChangeAddress) { b with stage := .failed } := rfl
  exact ⟨_, _, _, noRest, (refused_keeps chain b).2.1 spend _ _ noRest,
    noWitness, (refused_keeps chain done).2.2.1 signer _ _ noWitness,
    noBuild, (refused_keeps chain b).2.2.2 _ _ noBuild, rfl⟩

end ConwayTx.Builder
