import ConwayTx.BuildError
import ConwayTx.Output.Minimum
import ConwayTx.ProtocolParams

/-!
# Change

How what is left over goes back to the change address. Lovelace alone is one output or, below the
minimum, dust for the fee. Assets are split into bundles that fit an output value, each with its
minimum, the last one with all the lovelace that remains.
-/

namespace ConwayTx

structure Change where
  outputs : List TxOutput
  /-- Lovelace that no output can hold. -/
  dust : Amount

namespace Change

inductive Plan where
  | payable (change : Change)
  /-- The lovelace that the bundles lack. -/
  | short (shortfall : Amount)

def output (address : Address) (value : Value) : TxOutput := { address, value }

def planCoin (address : Address) (coinsPerByte coin : Amount) : Except EncodeError Plan := do
  if coin = 0 then return .payable ⟨[], 0⟩
  let o := output address (.ofCoin coin)
  let required ← o.minCoin coinsPerByte
  if coin < required then return .payable ⟨[], coin⟩
  else return .payable ⟨[o], 0⟩

/-! ### Bundles -/

def valueSize (v : Value) : Except EncodeError Nat := do return (← v.toCbor).encode.length

def isTooLarge (limit : Nat) (v : Value) : Except EncodeError Bool := do
  return limit < (← valueSize v)

/-- A bundle is closed when one more asset would make it too large. -/
def bundleAssets (limit : Nat) (coin : Amount) (current : Value) :
    List (PolicyId × AssetName × Int) → Except EncodeError (List Value)
  | [] => .ok [current]
  | (policy, name, q) :: rest => do
    let larger := current.addAsset policy name q
    let isFull ← if current.hasAssets then isTooLarge limit larger else .ok false
    if isFull then
      return current :: (← bundleAssets limit coin ((Value.ofCoin coin).addAsset policy name q) rest)
    else bundleAssets limit coin larger rest

/-- Sizes are measured with the whole coin in place, the bundles themselves have none. -/
def bundles (maxValueSize : UInt32) (change : Value) : Except EncodeError (List Value) := do
  let filled ← bundleAssets maxValueSize.toNat change.coin (.ofCoin change.coin) change.positive
  return filled.map Value.assetsOnly

/-- Outputs for the bundles out of `remaining`, and the lovelace they lack. -/
def placeBundles (address : Address) (coinsPerByte remaining : Amount) :
    List Value → Except EncodeError (List TxOutput × Amount)
  | [] => .ok ([], 0)
  | [last] => do
    let o := (output address last).withCoin remaining
    let required ← o.minCoin coinsPerByte
    return ([o], Amount.clamp (required.toNat - remaining.toNat))
  | bundle :: rest => do
    let o ← (output address bundle).raiseToMinimum coinsPerByte
    let left := Amount.clamp (remaining.toNat - o.coin.toNat)
    let (outputs, lacking) ← placeBundles address coinsPerByte left rest
    return (o :: outputs, Amount.clamp (o.coin.toNat - remaining.toNat + lacking.toNat))

def plan (params : ProtocolParams) (address : Address) (change : Value) : Except EncodeError Plan := do
  if change.hasAssets then
    let parts ← bundles params.maxValueSize change
    let (outputs, lacking) ← placeBundles address params.coinsPerUtxoByte change.coin parts
    return if lacking = 0 then .payable ⟨outputs, 0⟩ else .short lacking
  else planCoin address params.coinsPerUtxoByte change.coin

end Change

end ConwayTx
