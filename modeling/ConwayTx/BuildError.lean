import ConwayTx.Address.Text
import ConwayTx.EncodeError
import ConwayTx.Redeemer.Target
import ConwayTx.Value

/-!
# Build errors

Why a transaction cannot be built. A total that no one checks and no word holds is not one of these
reasons; it leaves the run without an answer (`Failure.overflow`).
-/

namespace ConwayTx

inductive Charge where
  | scripts
  | collateral
deriving DecidableEq

def Charge.name : Charge → String
  | scripts => "Script execution fee"
  | collateral => "Collateral for the maximum fee"

/-- What the builder was asking its chain for. -/
inductive ChainTask where
  | fetchParams
  | fetchMaxFee
  | fetchUtxos (address : Address)
  | evaluate
  | lookUp (ref : TxIn)
  | submit
deriving DecidableEq

def ChainTask.name : ChainTask → String
  | fetchParams => "Fetching protocol parameters"
  | fetchMaxFee => "Fetching maximum fee"
  | fetchUtxos address => s!"Fetching UTxOs at {address}"
  | evaluate => "Evaluating execution units"
  | lookUp ref => s!"Looking up UTxO {ref}"
  | submit => "Submitting transaction"

/-- A wallet known by its address alone cannot sign. -/
structure NoSigningKey where
  address : Address
deriving DecidableEq

def NoSigningKey.message (e : NoSigningKey) : String :=
  s!"External wallet {e.address} holds no signing key"

inductive BackendError where
  | chain (task : ChainTask) (reason : String)
  | utxoNotFound (ref : TxIn)
  | noWallet
  | signing (error : NoSigningKey)
deriving DecidableEq

def BackendError.message : BackendError → String
  | chain task reason => s!"{task.name}: {reason}"
  | utxoNotFound ref => s!"UTxO {ref} not found"
  | noWallet => "No wallet attached to sign with"
  | signing error => s!"Wallet failed to sign the transaction body: {error.message}"

inductive BuildError where
  | input (error : InputError)
  | value (error : ValueError)
  | encode (error : EncodeError)
  | insufficientFunds (required available : Amount)
  | missingAsset (policy : PolicyId) (name : AssetName) (missing : Int)
  | noCollateral (target : Amount)
  | noUtxosForChange (shortfall : Amount)
  | feeNotConverged (rounds : UInt64) (fee : Amount)
  | minimumNotReached (coin required : Amount)
  | arithmeticOverflow (charge : Charge)
  | txTooLarge (size : Nat) (max : UInt32)
  | alreadyFinalized
  | finalizeFailed
  | notFinalized
  | orphanRedeemer (target : RedeemerTarget)
  | noChangeAddress
  | backend (error : BackendError)
deriving DecidableEq

namespace BuildError

/-- The name of the cause in reports, behind the name of its group if it has one. -/
def name : BuildError → String
  | input error => "Input." ++ error.name
  | value error => "Value." ++ error.name
  | encode error => "Encode." ++ error.name
  | insufficientFunds .. => "InsufficientFunds"
  | missingAsset .. => "MissingAsset"
  | noCollateral .. => "NoCollateral"
  | noUtxosForChange .. => "NoUtxosForChange"
  | feeNotConverged .. => "FeeNotConverged"
  | minimumNotReached .. => "MinUtxoNotConverged"
  | arithmeticOverflow .. => "ArithmeticOverflow"
  | txTooLarge .. => "TxTooLarge"
  | alreadyFinalized => "AlreadyFinalized"
  | finalizeFailed => "FinalizeFailed"
  | notFinalized => "NotFinalized"
  | orphanRedeemer .. => "OrphanRedeemer"
  | noChangeAddress => "NoChangeAddress"
  | backend .. => "Backend"

def message : BuildError → String
  | input error => error.message
  | value error => error.message
  | encode error => error.message
  | insufficientFunds required available =>
    s!"Insufficient funds: required {required.toNat} lovelace, {available.toNat} available"
  | missingAsset policy name missing => s!"Missing asset {policy}.{name}: short by {missing}"
  | noCollateral target => s!"No UTxO eligible as collateral for {target.toNat} lovelace"
  | noUtxosForChange shortfall =>
    s!"No UTxOs left to fund change: short by {shortfall.toNat} lovelace"
  | feeNotConverged rounds fee =>
    s!"Fee did not converge after {rounds.toNat} iterations (last fee {fee.toNat})"
  | minimumNotReached coin required =>
    s!"Minimum UTxO did not converge (coin {coin.toNat}, required {required.toNat})"
  | arithmeticOverflow charge => s!"{charge.name} overflows a lovelace quantity"
  | txTooLarge size max => s!"Transaction of {size} bytes exceeds the maximum of {max.toNat}"
  | alreadyFinalized => "Transaction already finalized"
  | finalizeFailed => "A previous finalize attempt failed; build a new transaction"
  | notFinalized => "Transaction not finalized"
  | orphanRedeemer target =>
    s!"Redeemer for {target.display} has no matching item in the transaction"
  | noChangeAddress => "No change address: set one or attach a wallet"
  | backend error => s!"Backend error: {error.message}"

/-- A minimum that was not reached is reported without the number of rounds. -/
def ofEncodeError : EncodeError → BuildError
  | .minimumNotReached _ coin required => .minimumNotReached coin required
  | error => .encode error

end BuildError

/-- An answer of the chain; its reason is told together with the task. -/
def ChainTask.ask {α : Type} (task : ChainTask) (answer : Except String α) : Except BuildError α :=
  answer.mapError fun reason => .backend (.chain task reason)

inductive Failure where
  | refused (error : BuildError)
  | overflow
deriving DecidableEq

instance : MonadLift (Except InputError) (Except BuildError) := ⟨Except.mapError .input⟩
instance : MonadLift (Except ValueError) (Except BuildError) := ⟨Except.mapError .value⟩
instance : MonadLift (Except EncodeError) (Except BuildError) :=
  ⟨Except.mapError BuildError.ofEncodeError⟩
instance : MonadLift (Except BuildError) (Except Failure) := ⟨Except.mapError .refused⟩

/-- A total that has to fit, where nothing reports that it does not. -/
def expectTotal (total : Option Amount) : Except Failure Amount :=
  match total with
  | some amount => .ok amount
  | none => .error .overflow

end ConwayTx
