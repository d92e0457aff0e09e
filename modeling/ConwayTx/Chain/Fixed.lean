import ConwayTx.Cbor.Reader
import ConwayTx.Chain

/-!
# Fixed chains

A chain of given parameters and outputs. Submitted transactions are recorded and not applied.
-/

namespace ConwayTx

structure FixedChain where
  params : ProtocolParams := {}
  network : Network := .testnet
  tip : UInt64 := 0
  utxos : List Utxo := []
  evaluator : Option (Bytes → Except String Evaluation) := none
  /-- Oldest first. -/
  submitted : List Bytes := []

namespace FixedChain

def utxosAt (c : FixedChain) (address : Address) : List Utxo :=
  c.utxos.filter (·.address = address)

def utxoByRef? (c : FixedChain) (ref : TxIn) : Option Utxo := c.utxos.find? (·.ref = ref)

def evaluate (c : FixedChain) (tx : Bytes) : Except String Evaluation :=
  match c.evaluator with
  | some evaluator => evaluator tx
  | none => .ok ∅

/-- The hash of the first element of the transaction, its body. -/
def txId? (tx : Bytes) : Option TxId := (Cbor.firstOfArray? tx).map blake2b256

/-- Bytes that are no transaction leave no record. -/
def submit (c : FixedChain) (tx : Bytes) : Except String TxId × FixedChain :=
  match txId? tx with
  | some id => (.ok id, { c with submitted := c.submitted ++ [tx] })
  | none => (.error "malformed transaction", c)

def toChain (c : FixedChain) : Chain where
  network := c.network
  params := .ok c.params
  maxTxFee := .ok c.params.maxTxFee
  utxosAt address := .ok (c.utxosAt address)
  utxoByRef ref := .ok (c.utxoByRef? ref)
  evaluate := c.evaluate

end FixedChain

end ConwayTx
