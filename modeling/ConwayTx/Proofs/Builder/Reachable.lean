import ConwayTx.Builder.Operation
import ConwayTx.Proofs.Metadata
import ConwayTx.Proofs.Value.Canonical

/-!
# Reachable builders

The builders that operations lead to from a fresh one, whatever the chains answer. No output is
preselected twice (`Reachable.nodup_preselected`), the mint has no zero quantities
(`Reachable.canonical_mint`), and metadata is within its limits (`Reachable.withinLimits`).
-/

namespace ConwayTx.Builder

open Outcome

inductive Reachable : Builder → Prop where
  | fresh : Reachable {}
  | step {b : Builder} (before : Reachable b) (chain : Chain) (operation : Operation) :
      Reachable (step chain b operation).2

theorem Reachable.run {b : Builder} (before : Reachable b) (chain : Chain)
    (operations : List Operation) : Reachable (run chain b operations) := by
  induction operations generalizing b with
  | nil => exact before
  | cons operation rest ih => exact ih (before.step chain operation)

/-- However it ends, `finalize` moves the stage and nothing else. -/
theorem finalize_stage (b : Builder) (chain : Chain) :
    (b.finalize chain).2 = { b with stage := (b.finalize chain).2.stage } := by
  unfold finalize
  cases b.stage with
  | finalized tx inputs => rfl
  | failed => rfl
  | collecting =>
    cases b.build chain with
    | ok balanced => rfl
    | error failure => cases failure <;> rfl

/-- What every edit and `finalize` keep, all reachable builders have. -/
theorem Reachable.keeps {b : Builder} (reachable : Reachable b) (kept : Builder → Prop)
    (first : kept {})
    (edits : ∀ chain b e next, Edit.apply chain b e = .ok next → kept b → kept next)
    (ends : ∀ b stage, kept b → kept { b with stage }) : kept b := by
  induction reachable with
  | fresh => exact first
  | @step b _ chain operation ih =>
    cases operation with
    | edit e =>
      rw [Builder.step]
      split
      · rename_i next applied
        exact edits chain b e next applied ih
      · exact ih
    | finalize =>
      show kept (b.finalize chain).2
      rw [finalize_stage]
      exact ends b _ ih

theorem nodup_addOutputOnce {utxos : List Utxo} (distinct : (utxos.map Utxo.ref).Nodup) (u : Utxo) :
    ((addOutputOnce utxos u).map Utxo.ref).Nodup := by
  unfold addOutputOnce
  split
  · exact distinct
  · rename_i new
    rw [List.map_append, List.nodup_append]
    refine ⟨distinct, List.nodup_singleton _, fun r mem r' last same => new ?_⟩
    obtain ⟨v, inside, rfl⟩ := List.mem_map.1 mem
    obtain rfl : r' = u.ref := by simpa using last
    exact List.any_eq_true.2 ⟨v, inside, by simpa using same⟩

theorem addPayment_ok {b next : Builder} {p : Payment} (h : b.addPayment p = .ok next) :
    next = { b with payments := b.payments ++ [p] } := by
  obtain ⟨_, _, h⟩ := bind_ok h
  exact (pure_ok h).symm

theorem mintAssets_ok {b next : Builder} {u : AssetUnit} (h : b.mintAssets u = .ok next) :
    ∃ policy name, mintedAsset u = .ok (policy, name) ∧
      next = { b with mint := b.mint.addAsset policy name u.quantity.toInt } := by
  obtain ⟨⟨policy, name⟩, asset, h⟩ := bind_ok h
  exact ⟨policy, name, asset, (pure_ok h).symm⟩

theorem setMetadata_ok {b next : Builder} {m : Metadata} (h : b.setMetadata m = .ok next) :
    m.WithinLimits ∧ next = { b with metadata := some m } := by
  unfold setMetadata at h
  split at h
  · cases h
  · rename_i none
    cases h
    exact ⟨Metadata.withinLimits_of_outside? none, rfl⟩

theorem addMetadata_ok {b next : Builder} {label : UInt64} {datum : Metadatum}
    (h : b.addMetadata label datum = .ok next) : datum.isWithinLimits = true ∧
      next = { b with metadata := some ((b.metadata.getD ∅).insert label datum) } := by
  unfold addMetadata at h
  split at h
  · rename_i within
    cases h
    exact ⟨within, rfl⟩
  · cases h

theorem addKeyWitness_ok {b next : Builder} {witness : KeyWitness}
    (h : b.addKeyWitness witness = .ok next) :
    ∃ tx inputs, b.stage = .finalized tx inputs ∧
      next = { b with stage := .finalized { tx with witnesses := tx.witnesses.addKey witness } inputs } := by
  unfold addKeyWitness at h
  split at h
  · rename_i tx inputs stage
    cases h
    exact ⟨tx, inputs, stage, rfl⟩
  · cases h
  · cases h

/-- Signing adds one witness. -/
theorem sign_ok {b next : Builder} (h : b.sign = .ok next) :
    ∃ witness, b.addKeyWitness witness = .ok next := by
  unfold sign at h
  split at h
  · cases h
  · obtain ⟨hash, _, h⟩ := bind_ok h
    split at h
    · rename_i witness _
      exact ⟨witness, h⟩
    · cases h

theorem signWithSeed_ok {b next : Builder} {seed : Digest 32} (h : b.signWithSeed seed = .ok next) :
    ∃ witness, b.addKeyWitness witness = .ok next := by
  obtain ⟨hash, _, h⟩ := bind_ok h
  exact ⟨_, h⟩

/-! ### What an edit moves -/

/-- An edit preselects one output or mints one asset at most. -/
inductive Edited (b next : Builder) : Prop where
  | kept (preselected : next.preselected = b.preselected) (mint : next.mint = b.mint)
  | spends (u : Utxo) (preselected : next.preselected = addOutputOnce b.preselected u)
      (mint : next.mint = b.mint)
  | mints (policy : PolicyId) (name : AssetName) (q : Int)
      (preselected : next.preselected = b.preselected)
      (mint : next.mint = b.mint.addAsset policy name q)

/-- An edit signs, or it leaves the stage alone. -/
def Restaged (b next : Builder) : Prop :=
  next.stage = b.stage ∨ ∃ witness, b.addKeyWitness witness = .ok next

/-- An edit sets metadata or one label of it, within the limits, or it leaves metadata alone. -/
inductive Relabelled (b next : Builder) : Prop where
  | kept (metadata : next.metadata = b.metadata)
  | sets (m : Metadata) (within : m.WithinLimits) (metadata : next.metadata = some m)
  | adds (label : UInt64) (datum : Metadatum) (within : datum.isWithinLimits = true)
      (metadata : next.metadata = some ((b.metadata.getD ∅).insert label datum))

structure Moves (b next : Builder) : Prop where
  edited : Edited b next
  restaged : Restaged b next
  relabelled : Relabelled b next

theorem moves_addWithdrawal {b next : Builder} {address : Address} {amount : Amount}
    {redeemer : Option Redeemer} (h : b.addWithdrawal address amount redeemer = .ok next) :
    Moves b next := by
  obtain ⟨stake, _, h⟩ := bind_ok h
  dsimp only at h
  split at h
  · obtain rfl := pure_ok h
    exact ⟨.kept rfl rfl, .inl rfl, .kept rfl⟩
  · obtain rfl := pure_ok h
    exact ⟨.kept rfl rfl, .inl rfl, .kept rfl⟩

theorem moves_attachDatum {b next : Builder} (datum : PlutusData)
    (preselected : next.preselected = b.preselected) (mint : next.mint = b.mint)
    (stage : next.stage = b.stage) (metadata : next.metadata = b.metadata) :
    Moves b (next.attachDatum datum) := by
  unfold attachDatum
  split <;> exact ⟨.kept preselected mint, .inl stage, .kept metadata⟩

theorem moves_attachScript (b : Builder) (script : Script) :
    Moves b (b.attachScript script) := by
  unfold attachScript
  split <;> exact ⟨.kept rfl rfl, .inl rfl, .kept rfl⟩

theorem moves_addInputAddress (b : Builder) (address : Address) :
    Moves b (b.addInputAddress address) := by
  unfold addInputAddress
  split <;> exact ⟨.kept rfl rfl, .inl rfl, .kept rfl⟩

theorem moves_addKeyWitness {b next : Builder} {witness : KeyWitness}
    (h : b.addKeyWitness witness = .ok next) : Moves b next := by
  have restaged : Restaged b next := .inr ⟨witness, h⟩
  obtain ⟨_, _, _, rfl⟩ := addKeyWitness_ok h
  exact ⟨.kept rfl rfl, restaged, .kept rfl⟩

theorem moves_apply {chain : Chain} {b next : Builder} {e : Edit}
    (h : Edit.apply chain b e = .ok next) : Moves b next := by
  cases e with
  | addInput u =>
    cases h
    exact ⟨.spends u rfl rfl, .inl rfl, .kept rfl⟩
  | collectFrom u redeemer =>
    cases h
    exact ⟨.spends u rfl rfl, .inl rfl, .kept rfl⟩
  | consumeUtxo u payments =>
    obtain ⟨paid, _, h⟩ := bind_ok h
    obtain ⟨remainder, _, h⟩ := bind_ok h
    obtain ⟨rest, _, h⟩ := bind_ok h
    obtain rfl := pure_ok h
    exact ⟨.spends u rfl rfl, .inl rfl, .kept rfl⟩
  | mintAssets u =>
    obtain ⟨policy, name, _, rfl⟩ := mintAssets_ok h
    exact ⟨.mints policy name _ rfl rfl, .inl rfl, .kept rfl⟩
  | mintAssetsWithRedeemer u redeemer =>
    obtain ⟨asset, _, h⟩ := bind_ok h
    obtain ⟨minted, mintedOk, h⟩ := bind_ok h
    obtain ⟨policy, name, _, rfl⟩ := mintAssets_ok mintedOk
    obtain rfl := pure_ok h
    exact ⟨.mints policy name _ rfl rfl, .inl rfl, .kept rfl⟩
  | addPayment p =>
    obtain rfl := addPayment_ok h
    exact ⟨.kept rfl rfl, .inl rfl, .kept rfl⟩
  | addPaymentToText text lovelace units =>
    obtain ⟨address, _, h⟩ := bind_ok h
    obtain rfl := addPayment_ok h
    exact ⟨.kept rfl rfl, .inl rfl, .kept rfl⟩
  | addPaymentWithDatumHash p datum =>
    obtain ⟨paid, added, h⟩ := bind_ok h
    obtain rfl := addPayment_ok added
    obtain rfl := pure_ok h
    exact moves_attachDatum datum rfl rfl rfl rfl
  | updateRedeemers updates =>
    simp only [Edit.apply, updateRedeemers] at h
    split at h
    · cases h
    · cases h
      exact ⟨.kept rfl rfl, .inl rfl, .kept rfl⟩
  | addWithdrawal address amount redeemer => exact moves_addWithdrawal h
  | addKeyWitness witness => exact moves_addKeyWitness h
  | sign =>
    obtain ⟨_, h⟩ := sign_ok h
    exact moves_addKeyWitness h
  | signWithSeed seed =>
    obtain ⟨_, h⟩ := signWithSeed_ok h
    exact moves_addKeyWitness h
  | addInputAddress address =>
    cases h
    exact moves_addInputAddress b address
  | addInputAddressText text =>
    obtain ⟨address, _, h⟩ := bind_ok h
    obtain rfl := pure_ok h
    exact moves_addInputAddress b address
  | attachDatum datum =>
    cases h
    exact moves_attachDatum datum rfl rfl rfl rfl
  | attachScript script =>
    cases h
    exact moves_attachScript b script
  | addPaymentSigner address | addStakeSigner address =>
    simp only [Edit.apply, addPaymentSigner, addStakeSigner] at h
    split at h <;> cases h
    exact ⟨.kept rfl rfl, .inl rfl, .kept rfl⟩
  | setMetadata metadata =>
    obtain ⟨within, rfl⟩ := setMetadata_ok h
    exact ⟨.kept rfl rfl, .inl rfl, .sets metadata within rfl⟩
  | addMetadata label datum =>
    obtain ⟨within, rfl⟩ := addMetadata_ok h
    exact ⟨.kept rfl rfl, .inl rfl, .adds label datum within rfl⟩
  | setChangeAddressText text =>
    obtain ⟨address, _, h⟩ := bind_ok h
    obtain rfl := pure_ok h
    exact ⟨.kept rfl rfl, .inl rfl, .kept rfl⟩
  | addReferenceInputByRef ref =>
    obtain ⟨u, _, h⟩ := bind_ok h
    obtain rfl := pure_ok h
    exact ⟨.kept rfl rfl, .inl rfl, .kept rfl⟩
  | addStakeCertificate certificate given =>
    obtain ⟨credential, _, h⟩ := bind_ok h
    obtain rfl := pure_ok h
    exact ⟨.kept rfl rfl, .inl rfl, .kept rfl⟩
  | setWallet | setConfig | loadUtxos | setChangeAddress | addReferenceInput | addRequiredSigner
  | setTtl | setValidityStart | setFee | setFeePadding | setCollateralAmount | addCollateral
  | disableEstimation | addCertificate =>
    cases h
    exact ⟨.kept rfl rfl, .inl rfl, .kept rfl⟩

theorem Reachable.nodup_preselected {b : Builder} (reachable : Reachable b) :
    (b.preselected.map Utxo.ref).Nodup := by
  refine reachable.keeps (fun b => (b.preselected.map Utxo.ref).Nodup) List.nodup_nil ?_
    fun _ _ distinct => distinct
  intro chain b e next applied distinct
  rcases (moves_apply applied).edited with ⟨same, _⟩ | ⟨u, same, _⟩ | ⟨_, _, _, same, _⟩
  · rwa [same]
  · rw [same]
    exact nodup_addOutputOnce distinct u
  · rwa [same]

theorem Reachable.canonical_mint {b : Builder} (reachable : Reachable b) :
    b.mint.bundle.Canonical := by
  refine reachable.keeps (fun b => b.mint.bundle.Canonical) MultiAsset.canonical_empty ?_
    fun _ _ canonical => canonical
  intro chain b e next applied canonical
  rcases (moves_apply applied).edited with ⟨_, same⟩ | ⟨_, _, same⟩ | ⟨policy, name, q, _, same⟩
  · rwa [same]
  · rwa [same]
  · rw [same]
    exact (b.mint.canonical_addAsset policy name q).bundle

theorem Reachable.withinLimits {b : Builder} (reachable : Reachable b) :
    ∀ m ∈ b.metadata, m.WithinLimits := by
  refine reachable.keeps (fun b => ∀ m ∈ b.metadata, m.WithinLimits) (fun _ mem => by cases mem) ?_
    fun _ _ within => within
  intro chain b e next applied within
  cases (moves_apply applied).relabelled with
  | kept same => rwa [same]
  | sets m fits same =>
    rw [same]
    rintro _ ⟨⟩
    exact fits
  | adds label datum fits same =>
    rw [same]
    rintro _ ⟨⟩
    have before : Metadata.WithinLimits (b.metadata.getD ∅) := by
      cases given : b.metadata with
      | none => exact Metadata.withinLimits_empty
      | some m => exact within m given
    exact before.insert label fits

end ConwayTx.Builder
