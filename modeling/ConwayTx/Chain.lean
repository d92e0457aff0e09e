import ConwayTx.Output
import ConwayTx.ProtocolParams
import ConwayTx.Redeemer

/-!
# Chains

What the builder asks of a chain. Every question may fail with a reason, and leaves the chain as it
is.
-/

namespace ConwayTx

/-- Budgets by redeemer position. -/
abbrev Evaluation := SortedMap RedeemerPointer ExUnits

structure Chain where
  network : Network
  params : Except String ProtocolParams
  /-- An upper bound for the fee of any transaction. -/
  maxTxFee : Except String Amount
  utxosAt : Address → Except String (List Utxo)
  utxoByRef : TxIn → Except String (Option Utxo)
  /-- Runs the scripts of an encoded transaction. -/
  evaluate : Bytes → Except String Evaluation

end ConwayTx
