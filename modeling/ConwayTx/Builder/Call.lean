import ConwayTx.Builder.Operation

/-!
# Calls

The operations as a caller makes them, on one builder in place, write after write. A call that ends
in an error leaves whatever it has written so far, so each asks all its questions first.
-/

namespace ConwayTx.Builder

abbrev Call := EStateM BuildError Builder

/-- A refused answer ends the call. -/
instance {ε : Type} : MonadLift (Except ε) (EStateM ε Builder) := ⟨MonadExcept.ofExcept⟩

namespace Call

/-! ### Funding -/

def addInputAddressText (text : String) : Call Unit := do
  let address ← Address.readText text
  modify (·.addInputAddress address)

def setChangeAddressText (text : String) : Call Unit := do
  let address ← Address.readText text
  modify (·.setChangeAddress address)

/-! ### Payments -/

def pushPayments (payments : List Payment) : Call Unit :=
  modify fun b => { b with payments := b.payments ++ payments }

def addPayment (p : Payment) : Call Unit := do
  let _ ← p.value
  pushPayments [p]

def addPaymentToText (text : String) (lovelace : Amount) (units : List AssetUnit) : Call Unit := do
  let address ← Address.readText text
  addPayment { address, lovelace, units }

def addPaymentWithDatumHash (p : Payment) (datum : PlutusData) : Call Unit := do
  addPayment { p with datum := some (.hash datum.hash) }
  modify (·.attachDatum datum)

def consumeUtxo (u : Utxo) (payments : List Payment) : Call Unit := do
  let paid ← paidTotal payments
  let remainder ← u.value.sub paid
  let rest ← (← get).remainderPayment remainder
  modify (·.addInput u)
  pushPayments payments
  pushPayments rest

/-! ### Scripts -/

def collectFrom (u : Utxo) (redeemer : Redeemer) : Call Unit := do
  modify (·.setRedeemer (.spend u.ref) redeemer)
  modify (·.addInput u)

def updateRedeemers (updates : PendingRedeemers) : Call Unit := do
  let b ← get
  match updates.keys.find? fun target => !b.redeemers.contains target with
  | some target => throw (.orphanRedeemer target)
  | none => modify fun b => { b with redeemers := b.redeemers.insertMany updates.entries }

def mintAssets (u : AssetUnit) : Call Unit := do
  let (policy, name) ← mintedAsset u
  modify fun b => { b with mint := b.mint.addAsset policy name u.quantity.toInt }

def mintAssetsWithRedeemer (u : AssetUnit) (redeemer : Redeemer) : Call Unit := do
  let (policy, _) ← mintedAsset u
  mintAssets u
  modify (·.setRedeemer (.mint policy) redeemer)

def addWithdrawal (address : Address) (amount : Amount) (redeemer : Option Redeemer) :
    Call Unit := do
  let stake ← address.stakeAddress
  modify fun b => { b with withdrawals := b.withdrawals.insert stake amount }
  match redeemer with
  | some redeemer => modify (·.setRedeemer (.reward stake.credential) redeemer)
  | none => return

/-! ### References and signers -/

def addReferenceInputByRef (chain : Chain) (ref : TxIn) : Call Unit := do
  let u ← utxoOf chain ref
  modify (·.addReferenceInput u)

def addPaymentSigner (address : Address) : Call Unit :=
  match address.paymentCredential?.bind Credential.keyHash? with
  | some key => modify (·.addRequiredSigner key)
  | none => throw (.input (.noPaymentKeyHash address.display))

def addStakeSigner (address : Address) : Call Unit :=
  match address.stakeCredential?.bind Credential.keyHash? with
  | some key => modify (·.addRequiredSigner key)
  | none => throw (.input (.noStakeCredential address.display))

/-! ### Settings -/

def setMetadata (metadata : Metadata) : Call Unit := do
  if let some label := metadata.outside? then throw (.input (.metadatumOutOfLimits label))
  modify fun b => { b with metadata := some metadata }

def addMetadata (label : UInt64) (datum : Metadatum) : Call Unit := do
  if !datum.isWithinLimits then throw (.input (.metadatumOutOfLimits label))
  modify fun b => { b with metadata := some ((b.metadata.getD ∅).insert label datum) }

/-! ### Certificates -/

def addStakeCertificate (certificate : Credential → Certificate) (given : Option Credential) :
    Call Unit := do
  let credential ← (← get).stakeCredential given
  modify (·.addCertificate (certificate credential))

/-! ### Lifecycle -/

def addKeyWitness (witness : KeyWitness) : Call Unit := do
  match (← get).stage with
  | .finalized tx inputs =>
    let signed := { tx with witnesses := tx.witnesses.addKey witness }
    modify fun b => { b with stage := .finalized signed inputs }
  | .collecting | .failed => throw .notFinalized

/-- The witness is whatever the signer answers for the hash of the body. -/
def signWith (signer : TxId → Except BuildError KeyWitness) : Call Unit := do
  let hash ← (← get).txHash
  let witness ← signer hash
  addKeyWitness witness

def sign : Call Unit := do
  match (← get).wallet with
  | none => throw (.backend .noWallet)
  | some wallet => signWith fun hash => (wallet.sign hash).mapError (.backend ∘ .signing)

def signWithSeed (seed : Digest 32) : Call Unit := signWith fun hash => .ok (.ofSeed seed hash)

/-- The transaction is read back from the stage just written. -/
def finalize (chain : Chain) : EStateM Failure Builder Transaction := do
  let b ← get
  match b.stage with
  | .finalized .. => throw (.refused .alreadyFinalized)
  | .failed => throw (.refused .finalizeFailed)
  | .collecting =>
    match b.build chain with
    | .ok balanced =>
      modify fun b => { b with stage := .finalized balanced.tx balanced.inputs }
      (← get).tx
    | .error .overflow => throw .overflow
    | .error (.refused error) =>
      modify fun b => { b with stage := .failed }
      throw (.refused error)

end Call

/-- The edit in place. -/
def Edit.call (chain : Chain) : Edit → Call Unit
  | setWallet wallet => modify (·.setWallet wallet)
  | setConfig config => modify (·.setConfig config)
  | addInputAddress address => modify (·.addInputAddress address)
  | addInputAddressText text => Call.addInputAddressText text
  | loadUtxos utxos => modify (·.loadUtxos utxos)
  | addInput utxo => modify (·.addInput utxo)
  | consumeUtxo utxo payments => Call.consumeUtxo utxo payments
  | setChangeAddress address => modify (·.setChangeAddress address)
  | setChangeAddressText text => Call.setChangeAddressText text
  | addPayment payment => Call.addPayment payment
  | addPaymentToText text lovelace units => Call.addPaymentToText text lovelace units
  | addPaymentWithDatumHash payment datum => Call.addPaymentWithDatumHash payment datum
  | collectFrom utxo redeemer => Call.collectFrom utxo redeemer
  | updateRedeemers updates => Call.updateRedeemers updates
  | mintAssets unit => Call.mintAssets unit
  | mintAssetsWithRedeemer unit redeemer => Call.mintAssetsWithRedeemer unit redeemer
  | addWithdrawal address amount redeemer => Call.addWithdrawal address amount redeemer
  | attachDatum datum => modify (·.attachDatum datum)
  | attachScript script => modify (·.attachScript script)
  | addReferenceInput utxo => modify (·.addReferenceInput utxo)
  | addReferenceInputByRef ref => Call.addReferenceInputByRef chain ref
  | addRequiredSigner key => modify (·.addRequiredSigner key)
  | addPaymentSigner address => Call.addPaymentSigner address
  | addStakeSigner address => Call.addStakeSigner address
  | setTtl slot => modify (·.setTtl slot)
  | setValidityStart slot => modify (·.setValidityStart slot)
  | setFee fee => modify (·.setFee fee)
  | setFeePadding padding => modify (·.setFeePadding padding)
  | setCollateralAmount amount => modify (·.setCollateralAmount amount)
  | addCollateral utxo => modify (·.addCollateral utxo)
  | setMetadata metadata => Call.setMetadata metadata
  | addMetadata label datum => Call.addMetadata label datum
  | disableEstimation => modify (·.disableEstimation)
  | addCertificate certificate => modify (·.addCertificate certificate)
  | addStakeCertificate certificate given => Call.addStakeCertificate certificate given
  | addKeyWitness witness => Call.addKeyWitness witness
  | sign => Call.sign
  | signWithSeed seed => Call.signWithSeed seed

def Operation.call (chain : Chain) : Operation → EStateM Failure Builder Unit
  | edit e => (e.call chain).adaptExcept .refused
  | finalize => discard (Call.finalize chain)

/-- The outcome of a call and the builder it leaves. -/
def Call.outcome {ε α : Type} : EStateM.Result ε Builder α → Except ε α × Builder
  | .ok a next => (.ok a, next)
  | .error error next => (.error error, next)

end ConwayTx.Builder
