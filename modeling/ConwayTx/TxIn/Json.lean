import ConwayTx.Digest.Json
import ConwayTx.TxIn

/-!
# Output references in JSON
-/

namespace ConwayTx.TxIn

def toJson (ref : TxIn) : Json :=
  .record [("tx_hash", ref.txId.toJson), ("output_index", .ofNat ref.index.toNat)]

def ofJson? (j : Json) : Option TxIn := do
  let [some txId, some index] ← j.fields? ["tx_hash", "output_index"] | none
  return ⟨← Digest.ofJson? txId, ← index.uint32?⟩

end ConwayTx.TxIn
