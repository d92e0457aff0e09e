import ConwayTx.Builder.Lifecycle

/-!
# Operations on a builder

Whatever a caller can ask of a builder, as data. An edit has a new builder or is refused; `step`
goes on with the old one then. Only `finalize` can fail and still change the builder.
-/

namespace ConwayTx.Builder

inductive Edit where
  | setWallet (wallet : Wallet)
  | setConfig (config : BuilderConfig)
  | addInputAddress (address : Address)
  | addInputAddressText (text : String)
  | loadUtxos (utxos : List Utxo)
  | addInput (utxo : Utxo)
  | consumeUtxo (utxo : Utxo) (payments : List Payment)
  | setChangeAddress (address : Address)
  | setChangeAddressText (text : String)
  | addPayment (payment : Payment)
  | addPaymentToText (text : String) (lovelace : Amount) (units : List AssetUnit)
  | addPaymentWithDatumHash (payment : Payment) (datum : PlutusData)
  | collectFrom (utxo : Utxo) (redeemer : Redeemer)
  | updateRedeemers (updates : PendingRedeemers)
  | mintAssets (unit : AssetUnit)
  | mintAssetsWithRedeemer (unit : AssetUnit) (redeemer : Redeemer)
  | addWithdrawal (address : Address) (amount : Amount) (redeemer : Option Redeemer)
  | attachDatum (datum : PlutusData)
  | attachScript (script : Script)
  | addReferenceInput (utxo : Utxo)
  | addReferenceInputByRef (ref : TxIn)
  | addRequiredSigner (key : KeyHash)
  | addPaymentSigner (address : Address)
  | addStakeSigner (address : Address)
  | setTtl (slot : UInt64)
  | setValidityStart (slot : UInt64)
  | setFee (fee : Amount)
  | setFeePadding (padding : Amount)
  | setCollateralAmount (amount : Amount)
  | addCollateral (utxo : Utxo)
  | setMetadata (metadata : Metadata)
  | addMetadata (label : UInt64) (datum : Metadatum)
  | disableEstimation
  | addCertificate (certificate : Certificate)
  | addStakeCertificate (certificate : Credential → Certificate) (given : Option Credential)
  | addKeyWitness (witness : KeyWitness)
  | sign
  | signWithSeed (seed : Digest 32)

def Edit.apply (chain : Chain) (b : Builder) : Edit → Except BuildError Builder
  | setWallet wallet => .ok (b.setWallet wallet)
  | setConfig config => .ok (b.setConfig config)
  | addInputAddress address => .ok (b.addInputAddress address)
  | addInputAddressText text => b.addInputAddressText text
  | loadUtxos utxos => .ok (b.loadUtxos utxos)
  | addInput utxo => .ok (b.addInput utxo)
  | consumeUtxo utxo payments => b.consumeUtxo utxo payments
  | setChangeAddress address => .ok (b.setChangeAddress address)
  | setChangeAddressText text => b.setChangeAddressText text
  | addPayment payment => b.addPayment payment
  | addPaymentToText text lovelace units => b.addPaymentToText text lovelace units
  | addPaymentWithDatumHash payment datum => b.addPaymentWithDatumHash payment datum
  | collectFrom utxo redeemer => .ok (b.collectFrom utxo redeemer)
  | updateRedeemers updates => b.updateRedeemers updates
  | mintAssets unit => b.mintAssets unit
  | mintAssetsWithRedeemer unit redeemer => b.mintAssetsWithRedeemer unit redeemer
  | addWithdrawal address amount redeemer => b.addWithdrawal address amount redeemer
  | attachDatum datum => .ok (b.attachDatum datum)
  | attachScript script => .ok (b.attachScript script)
  | addReferenceInput utxo => .ok (b.addReferenceInput utxo)
  | addReferenceInputByRef ref => b.addReferenceInputByRef chain ref
  | addRequiredSigner key => .ok (b.addRequiredSigner key)
  | addPaymentSigner address => b.addPaymentSigner address
  | addStakeSigner address => b.addStakeSigner address
  | setTtl slot => .ok (b.setTtl slot)
  | setValidityStart slot => .ok (b.setValidityStart slot)
  | setFee fee => .ok (b.setFee fee)
  | setFeePadding padding => .ok (b.setFeePadding padding)
  | setCollateralAmount amount => .ok (b.setCollateralAmount amount)
  | addCollateral utxo => .ok (b.addCollateral utxo)
  | setMetadata metadata => b.setMetadata metadata
  | addMetadata label datum => b.addMetadata label datum
  | disableEstimation => .ok b.disableEstimation
  | addCertificate certificate => .ok (b.addCertificate certificate)
  | addStakeCertificate certificate given => b.addStakeCertificate certificate given
  | addKeyWitness witness => b.addKeyWitness witness
  | sign => b.sign
  | signWithSeed seed => b.signWithSeed seed

inductive Operation where
  | edit (e : Edit)
  | finalize

/-- The outcome, and the builder to go on with. -/
def step (chain : Chain) (b : Builder) : Operation → Except Failure Unit × Builder
  | .edit e =>
    match e.apply chain b with
    | .ok next => (.ok (), next)
    | .error error => (.error (.refused error), b)
  | .finalize =>
    let (outcome, next) := b.finalize chain
    (outcome.map fun _ => (), next)

/-- The builder after all operations, whatever their outcomes. -/
def run (chain : Chain) (b : Builder) (operations : List Operation) : Builder :=
  operations.foldl (fun b operation => (step chain b operation).2) b

end ConwayTx.Builder
