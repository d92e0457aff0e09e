import ConwayTx.Address.Raw
import ConwayTx.PlutusData
import ConwayTx.Script
import ConwayTx.TxIn
import ConwayTx.Value.Wire

/-!
# Outputs

Transaction outputs, and unspent ones together with their reference.
-/

namespace ConwayTx

structure TxOutput where
  address : Address
  value : Value
  datum : Option Datum := none
  script : Option Script := none

namespace TxOutput

def coin (o : TxOutput) : Amount := o.value.coin

def withCoin (o : TxOutput) (coin : Amount) : TxOutput := { o with value := { o.value with coin } }

/-- Address, value, and what there is of datum and script. -/
def toCbor (o : TxOutput) : Except EncodeError Cbor := do
  let value ← o.value.toCbor
  return .fields [(0, some o.address.toCbor), (1, some value), (2, o.datum.map Datum.toCbor),
    (3, o.script.map Script.toCbor)]

end TxOutput

structure Utxo where
  ref : TxIn
  output : TxOutput

namespace Utxo

def value (u : Utxo) : Value := u.output.value
def coin (u : Utxo) : Amount := u.output.value.coin
def address (u : Utxo) : Address := u.output.address

/-- Carries no assets. -/
def isAdaOnly (u : Utxo) : Bool := !u.value.hasAssets

end Utxo

end ConwayTx
