import ConwayTx.BuilderConfig
import ConwayTx.Chain
import ConwayTx.Draft
import ConwayTx.Payment
import ConwayTx.Wallet

/-!
# The builder

Collects the parts of a transaction. An operation that refuses its arguments has no new builder to
give, so the one before it stays as it was.
-/

namespace ConwayTx

inductive Stage where
  | collecting
  | finalized (tx : Transaction) (inputs : List Utxo)
  | failed

structure Builder where
  wallet : Option Wallet := none
  config : BuilderConfig := {}
  inputAddresses : List Address := []
  loadedUtxos : List Utxo := []
  /-- Spent whatever selection picks. -/
  preselected : List Utxo := []
  payments : List Payment := []
  changeAddress : Option Address := none
  /-- Net quantities; burns are negative. -/
  mint : Value := .ofCoin 0
  redeemers : PendingRedeemers := ∅
  withdrawals : Withdrawals := ∅
  datums : List PlutusData := []
  scripts : List Script := []
  referenceInputs : List Utxo := []
  requiredSigners : SortedSet KeyHash := ∅
  certificates : List Certificate := []
  ttl : Option UInt64 := none
  validityStart : Option UInt64 := none
  fee : Option Amount := none
  feePadding : Option Amount := none
  collateralAmount : Option Amount := none
  collateral : List Utxo := []
  metadata : Option Metadata := none
  stage : Stage := .collecting

namespace Builder

instance : Inhabited Builder := ⟨{}⟩

def addOutputOnce (utxos : List Utxo) (u : Utxo) : List Utxo :=
  if utxos.any (·.ref = u.ref) then utxos else utxos ++ [u]

/-! ### Funding -/

def setWallet (b : Builder) (wallet : Wallet) : Builder := { b with wallet := some wallet }

def setConfig (b : Builder) (config : BuilderConfig) : Builder := { b with config }

/-- The outputs at the address are fetched when the transaction is built. -/
def addInputAddress (b : Builder) (address : Address) : Builder :=
  if b.inputAddresses.contains address then b
  else { b with inputAddresses := b.inputAddresses ++ [address] }

def addInputAddressText (b : Builder) (text : String) : Except BuildError Builder := do
  return b.addInputAddress (← Address.readText text)

def loadUtxos (b : Builder) (utxos : List Utxo) : Builder :=
  { b with loadedUtxos := b.loadedUtxos ++ utxos }

def addInput (b : Builder) (u : Utxo) : Builder :=
  { b with preselected := addOutputOnce b.preselected u }

def setChangeAddress (b : Builder) (address : Address) : Builder :=
  { b with changeAddress := some address }

def setChangeAddressText (b : Builder) (text : String) : Except BuildError Builder := do
  return b.setChangeAddress (← Address.readText text)

/-- The one that was set, else the wallet's. -/
def changeTarget (b : Builder) : Except BuildError Address :=
  match b.changeAddress, b.wallet with
  | some address, _ => .ok address
  | none, some wallet => .ok wallet.address
  | none, none => .error .noChangeAddress

/-! ### Payments -/

def addPayment (b : Builder) (p : Payment) : Except BuildError Builder := do
  let _ ← p.value
  return { b with payments := b.payments ++ [p] }

def addPaymentToText (b : Builder) (text : String) (lovelace : Amount) (units : List AssetUnit) :
    Except BuildError Builder := do
  let address ← Address.readText text
  b.addPayment { address, lovelace, units }

def attachDatum (b : Builder) (datum : PlutusData) : Builder :=
  if b.datums.contains datum then b else { b with datums := b.datums ++ [datum] }

/-- The output has the datum's hash; the datum itself becomes a witness. -/
def addPaymentWithDatumHash (b : Builder) (p : Payment) (datum : PlutusData) :
    Except BuildError Builder := do
  return (← b.addPayment { p with datum := some (.hash datum.hash) }).attachDatum datum

def paidTotal (payments : List Payment) : Except BuildError Value :=
  payments.foldlM (fun paid p => do
    let one ← p.value
    paid.add one) (.ofCoin 0)

/-- A payment of what is left to the change address, if anything is. -/
def remainderPayment (b : Builder) (remainder : Value) : Except BuildError (List Payment) := do
  if 0 < remainder.coin ∨ remainder.hasAssets then
    let address ← b.changeTarget
    return [← Payment.ofValue address remainder]
  else return []

/-- Spends an output, makes payments of it and returns the rest. -/
def consumeUtxo (b : Builder) (u : Utxo) (payments : List Payment) : Except BuildError Builder := do
  let paid ← paidTotal payments
  let remainder ← u.value.sub paid
  let rest ← b.remainderPayment remainder
  return { b.addInput u with payments := b.payments ++ payments ++ rest }

/-! ### Scripts -/

def setRedeemer (b : Builder) (target : RedeemerTarget) (redeemer : Redeemer) : Builder :=
  { b with redeemers := b.redeemers.insert target redeemer }

def collectFrom (b : Builder) (u : Utxo) (redeemer : Redeemer) : Builder :=
  (b.setRedeemer (.spend u.ref) redeemer).addInput u

/-- Replaces redeemers that are attached already, all or none. -/
def updateRedeemers (b : Builder) (updates : PendingRedeemers) : Except BuildError Builder :=
  match updates.keys.find? fun target => !b.redeemers.contains target with
  | some target => .error (.orphanRedeemer target)
  | none => .ok { b with redeemers := b.redeemers.insertMany updates.entries }

def mintedAsset (u : AssetUnit) : Except BuildError (PolicyId × AssetName) := do
  match ← u.assetId with
  | some asset => return asset
  | none => throw (.input (.notAnAsset u.display))

/-- Mints a positive quantity, burns a negative one. -/
def mintAssets (b : Builder) (u : AssetUnit) : Except BuildError Builder := do
  let (policy, name) ← mintedAsset u
  return { b with mint := b.mint.addAsset policy name u.quantity.toInt }

def mintAssetsWithRedeemer (b : Builder) (u : AssetUnit) (redeemer : Redeemer) :
    Except BuildError Builder := do
  let (policy, _) ← mintedAsset u
  return (← b.mintAssets u).setRedeemer (.mint policy) redeemer

/-- A later withdrawal from the same stake address replaces an earlier one. -/
def addWithdrawal (b : Builder) (address : Address) (amount : Amount) (redeemer : Option Redeemer) :
    Except BuildError Builder := do
  let stake ← address.stakeAddress
  let withdrawn := { b with withdrawals := b.withdrawals.insert stake amount }
  match redeemer with
  | some redeemer => return withdrawn.setRedeemer (.reward stake.credential) redeemer
  | none => return withdrawn

/-- Scripts with one hash are carried once. -/
def attachScript (b : Builder) (script : Script) : Builder :=
  if b.scripts.any (·.hash = script.hash) then b else { b with scripts := b.scripts ++ [script] }

/-! ### References and signers -/

def addReferenceInput (b : Builder) (u : Utxo) : Builder :=
  { b with referenceInputs := addOutputOnce b.referenceInputs u }

def utxoOf (chain : Chain) (ref : TxIn) : Except BuildError Utxo := do
  match ← (ChainTask.lookUp ref).ask (chain.utxoByRef ref) with
  | some u => return u
  | none => throw (.backend (.utxoNotFound ref))

def addReferenceInputByRef (b : Builder) (chain : Chain) (ref : TxIn) : Except BuildError Builder := do
  return b.addReferenceInput (← utxoOf chain ref)

def addRequiredSigner (b : Builder) (key : KeyHash) : Builder :=
  { b with requiredSigners := b.requiredSigners.addKey key }

def addPaymentSigner (b : Builder) (address : Address) : Except BuildError Builder :=
  match address.paymentCredential?.bind Credential.keyHash? with
  | some key => .ok (b.addRequiredSigner key)
  | none => .error (.input (.noPaymentKeyHash address.display))

def addStakeSigner (b : Builder) (address : Address) : Except BuildError Builder :=
  match address.stakeCredential?.bind Credential.keyHash? with
  | some key => .ok (b.addRequiredSigner key)
  | none => .error (.input (.noStakeCredential address.display))

/-! ### Settings -/

def setTtl (b : Builder) (slot : UInt64) : Builder := { b with ttl := some slot }
def setValidityStart (b : Builder) (slot : UInt64) : Builder := { b with validityStart := some slot }

/-- The fee is then not estimated. -/
def setFee (b : Builder) (fee : Amount) : Builder := { b with fee := some fee }

def setFeePadding (b : Builder) (padding : Amount) : Builder := { b with feePadding := some padding }

def setCollateralAmount (b : Builder) (amount : Amount) : Builder :=
  { b with collateralAmount := some amount }

/-- Collateral is then not selected. -/
def addCollateral (b : Builder) (u : Utxo) : Builder :=
  { b with collateral := addOutputOnce b.collateral u }

def setMetadata (b : Builder) (metadata : Metadata) : Except BuildError Builder :=
  match metadata.outside? with
  | some label => .error (.input (.metadatumOutOfLimits label))
  | none => .ok { b with metadata := some metadata }

def addMetadata (b : Builder) (label : UInt64) (datum : Metadatum) : Except BuildError Builder :=
  if datum.isWithinLimits then .ok { b with metadata := some ((b.metadata.getD ∅).insert label datum) }
  else .error (.input (.metadatumOutOfLimits label))

def disableEstimation (b : Builder) : Builder :=
  { b with config := { b.config with estimateExUnits := false } }

/-! ### Certificates -/

def addCertificate (b : Builder) (certificate : Certificate) : Builder :=
  { b with certificates := b.certificates ++ [certificate] }

/-- The given credential, else the wallet's. -/
def stakeCredential (b : Builder) (given : Option Credential) : Except BuildError Credential :=
  match given, b.wallet with
  | some credential, _ => .ok credential
  | none, some wallet => do return (← wallet.address.stakeAddress).credential
  | none, none => .error (.input (.noStakeCredential "no wallet attached"))

/-- A certificate that acts on a stake credential. -/
def addStakeCertificate (b : Builder) (certificate : Credential → Certificate)
    (given : Option Credential) : Except BuildError Builder := do
  return b.addCertificate (certificate (← b.stakeCredential given))

/-! ### Inspection -/

def minted (b : Builder) : Value := b.mint.bundle.minted
def burned (b : Builder) : Value := b.mint.bundle.burned

end Builder

end ConwayTx
