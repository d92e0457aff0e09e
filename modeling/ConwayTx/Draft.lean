import ConwayTx.Redeemer.Layout
import ConwayTx.ScriptIntegrity

/-!
# Drafts

All of a transaction but its spending inputs, its change and its fee. `assemble` adds those and
places the redeemers; `extraSupply` and `baseDemand` are what has to balance besides them.
-/

namespace ConwayTx

structure Draft where
  /-- Outputs here are the payments. -/
  body : TxBody := {}
  witnesses : WitnessSet := {}
  redeemers : PendingRedeemers := ∅
  metadata : Option Metadata := none
  /-- Languages whose cost models enter the script data hash. -/
  versions : SortedSet PlutusVersion := ∅
  /-- Keys that sign for withdrawals and certificates. -/
  stakeWitnesses : Nat := 0

/-- Minted quantities. -/
def MultiAsset.minted (m : MultiAsset) : Value :=
  .withAssets 0 (m.mapValues (·.filter fun _ q => 0 < q))

/-- Burnt quantities, as positive numbers. -/
def MultiAsset.burned (m : MultiAsset) : Value :=
  .withAssets 0 (m.mapValues fun names => (names.filter fun _ q => q < 0).mapValues fun q => -q)

namespace Draft

def mint (d : Draft) : MultiAsset := d.body.mint.getD ∅

def assemble (d : Draft) (inputs : List Utxo) (change : List TxOutput) (fee : Amount)
    (models : CostModels) : Except BuildError Transaction := do
  let body := { d.body with
    inputs := d.body.inputs.addKeys (inputs.map Utxo.ref)
    outputs := d.body.outputs ++ change
    fee }
  let redeemers ← (RedeemerLayout.ofBody body).assign d.redeemers
  let scriptDataHash ← ScriptIntegrity.hash? redeemers d.witnesses.datums d.versions models
  return {
    body := { body with scriptDataHash }
    witnesses := { d.witnesses with redeemers }
    metadata := d.metadata }

def totalExUnits (d : Draft) : ExUnits :=
  d.redeemers.values.foldl (fun total redeemer => total.add redeemer.exUnits) default

/-- Mints, withdrawals and refunds. -/
def extraSupply (d : Draft) (params : ProtocolParams) : Except Failure Value := do
  let withdrawn ← expectTotal (Amount.sum? d.body.withdrawals.values)
  let refunds ← expectTotal (Certificate.totalRefund? params d.body.certificates)
  let sum : Except ValueError Value := do
    (← d.mint.minted.add (.ofCoin withdrawn)).add (.ofCoin refunds)
  sum.mapError fun e => .refused (.value e)

/-- Burns, deposits and payments. -/
def baseDemand (d : Draft) (params : ProtocolParams) : Except Failure Value := do
  let deposits ← expectTotal (Certificate.totalDeposit? params d.body.certificates)
  let sum : Except ValueError Value := do
    d.body.outputs.foldlM (fun demand output => demand.add output.value)
      (← d.mint.burned.add (.ofCoin deposits))
  sum.mapError fun e => .refused (.value e)

end Draft

end ConwayTx
