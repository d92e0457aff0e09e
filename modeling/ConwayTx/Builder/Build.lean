import ConwayTx.Balance
import ConwayTx.Builder
import ConwayTx.Collateral

/-!
# Builds

From a builder to a balanced transaction: the pool of outputs, the draft, a first selection,
collateral, balancing. Budgets are first evaluated on a trial build that has the caller's.
-/

namespace ConwayTx.Builder

/-! ### Ground -/

/-- What both builds of one run start from. -/
structure Ground where
  params : ProtocolParams
  changeAddress : Address
  /-- What may be spent, each output once. -/
  pool : List Utxo

/-- The wallet's address counts when no outputs and no addresses were given. -/
def sources (b : Builder) : List Address :=
  if b.loadedUtxos.isEmpty && b.inputAddresses.isEmpty then b.wallet.toList.map Wallet.address
  else b.inputAddresses

/-- Reference inputs are never spent. -/
def loadPool (b : Builder) (chain : Chain) : Except BuildError (List Utxo) := do
  let fetched ← b.sources.mapM fun address =>
    (ChainTask.fetchUtxos address).ask (chain.utxosAt address)
  let spendable := Balancer.withoutRefs (b.loadedUtxos ++ fetched.flatten) b.referenceInputs
  return spendable.foldl addOutputOnce []

def ground (b : Builder) (chain : Chain) : Except BuildError Ground := do
  let params ← ChainTask.fetchParams.ask chain.params
  let changeAddress ← b.changeTarget
  let pool ← b.loadPool chain
  return { params, changeAddress, pool }

/-! ### Draft -/

/-- Of the attached scripts and of those that reference inputs carry. -/
def versions (b : Builder) : SortedSet PlutusVersion :=
  .ofKeys ((b.scripts ++ b.referenceInputs.filterMap (·.output.script)).filterMap Script.version?)

/-- Keys that have to sign besides the required signers. -/
def stakeSigners (b : Builder) : SortedSet KeyHash :=
  let withdrawn := b.withdrawals.keys.map StakeAddress.credential
  let certified := b.certificates.filterMap Certificate.signer?
  let keys := (withdrawn ++ certified).filterMap Credential.keyHash?
  .ofKeys (keys.filter fun key => !b.requiredSigners.contains key)

def draft (b : Builder) (network : Network) (params : ProtocolParams)
    (redeemers : PendingRedeemers) : Except BuildError Draft := do
  let outputs ← b.payments.mapM (·.output params.coinsPerUtxoByte)
  let metadataHash ← (b.metadata.mapM Metadata.hash : Except EncodeError (Option (Digest 32)))
  return {
    body := {
      outputs
      ttl := b.ttl
      certificates := b.certificates
      keyDeposit := params.keyDeposit
      withdrawals := b.withdrawals
      metadataHash
      validityStart := b.validityStart
      mint := b.mint.assets
      requiredSigners := b.requiredSigners
      network := some network
      referenceInputs := .ofKeys (b.referenceInputs.map Utxo.ref) }
    witnesses := {
      nativeScripts := b.scripts.filterMap Script.native?
      plutusScripts := b.scripts.filterMap Script.plutus?
      datums := b.datums }
    redeemers
    metadata := b.metadata
    versions := b.versions
    stakeWitnesses := b.stakeSigners.size }

/-! ### Collateral -/

/-- A native script alone asks for no collateral. -/
def runsScripts (b : Builder) : Bool :=
  !b.redeemers.isEmpty || b.scripts.any fun script => script.plutus?.isSome

def collateralTarget (b : Builder) (params : ProtocolParams) (maxFee : Amount) :
    Except Failure Amount :=
  match b.collateralAmount with
  | some amount => .ok amount
  | none =>
    if 0 < params.collateralPercent then Collateral.forFee maxFee params.collateralPercent
    else .ok b.config.collateralFallback

/-- Given collateral is taken as it is. Else one output is chosen, an input only as a last resort. -/
def addCollateralTo (b : Builder) (body : TxBody) (ground : Ground) (maxFee : Amount)
    (inputs : List Utxo) : Except Failure TxBody := do
  if b.collateral.isEmpty then
    let target ← b.collateralTarget ground.params maxFee
    let choice ← Collateral.select ground.pool (.ofKeys (inputs.map Utxo.ref))
      (inputs.filter Utxo.isAdaOnly) target ground.changeAddress ground.params.coinsPerUtxoByte
    return { body with
      collateral := .ofKeys [choice.input.ref]
      collateralReturn := choice.returned
      totalCollateral := some choice.total }
  else return { body with collateral := .ofKeys (b.collateral.map Utxo.ref) }

/-! ### Balance -/

/-- Enough inputs for the demand and the largest fee. -/
def selectInputs (b : Builder) (draft : Draft) (ground : Ground) (maxFee : Amount) :
    Except Failure (List Utxo) := do
  let extra ← draft.extraSupply ground.params
  let committed ← (Balancer.supplyOf extra b.preselected : Except BuildError Value)
  let demand ← draft.baseDemand ground.params
  let required ← (demand.add (.ofCoin maxFee) : Except BuildError Value)
  let picks ← Selection.select ground.pool (.ofKeys (b.preselected.map Utxo.ref)) required committed
  return b.preselected ++ picks

def balancer (b : Builder) (ground : Ground) (collateral : SortedSet TxIn) : Balancer where
  params := ground.params
  maxFeeRounds := b.config.maxFeeRounds
  pool := Selection.unused ground.pool collateral
  changeAddress := ground.changeAddress
  fixedFee := b.fee
  feePadding := b.feePadding.getD b.config.feePadding

/-- One build with given budgets. -/
def buildWith (b : Builder) (chain : Chain) (ground : Ground) (redeemers : PendingRedeemers) :
    Except Failure Balanced := do
  let draft ← b.draft chain.network ground.params redeemers
  let maxFee ← ChainTask.fetchMaxFee.ask chain.maxTxFee
  let inputs ← b.selectInputs draft ground maxFee
  let body ←
    if b.runsScripts then b.addCollateralTo draft.body ground maxFee inputs else .ok draft.body
  (b.balancer ground body.collateral).balance { draft with body } inputs

/-! ### Budgets -/

def estimates (b : Builder) : Bool := b.config.estimateExUnits && !b.redeemers.isEmpty

/-- A transaction for the evaluator. -/
structure Trial where
  body : TxBody
  encoded : Bytes

def trial (b : Builder) (chain : Chain) (ground : Ground) : Except Failure Trial := do
  let balanced ← b.buildWith chain ground b.redeemers
  let encoded ← (balanced.tx.encode : Except BuildError Bytes)
  return ⟨balanced.tx.body, encoded⟩

/-- Sets the budget of a redeemer that is there. -/
def budget (redeemers : PendingRedeemers) (target : RedeemerTarget) (exUnits : ExUnits) :
    PendingRedeemers :=
  match redeemers.find? target with
  | some redeemer => redeemers.insert target { redeemer with exUnits }
  | none => redeemers

/-- Evaluated budgets with the margin on top. Positions that the body does not have are ignored. -/
def withBudgets (b : Builder) (body : TxBody) (evaluation : Evaluation) : PendingRedeemers :=
  evaluation.entries.foldl (fun redeemers (pointer, units) =>
    match (RedeemerLayout.ofBody body).target? pointer with
    | some target => budget redeemers target (units.withMargin b.config.exUnitsMarginPercent)
    | none => redeemers) b.redeemers

def settledRedeemers (b : Builder) (chain : Chain) (ground : Ground) :
    Except Failure PendingRedeemers := do
  if b.estimates then
    let trial ← b.trial chain ground
    let evaluation ← ChainTask.evaluate.ask (chain.evaluate trial.encoded)
    return b.withBudgets trial.body evaluation
  else return b.redeemers

def build (b : Builder) (chain : Chain) : Except Failure Balanced := do
  let ground ← b.ground chain
  let redeemers ← b.settledRedeemers chain ground
  b.buildWith chain ground redeemers

/-- The bytes that a build gives to the evaluator, if it comes that far. -/
def evaluated? (b : Builder) (chain : Chain) : Option Bytes :=
  if b.estimates then
    match b.ground chain with
    | .ok ground => (b.trial chain ground).toOption.map Trial.encoded
    | .error _ => none
  else none

end ConwayTx.Builder
