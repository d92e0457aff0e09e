import ConwayTx.Cbor
import ConwayTx.Digest

/-!
# Output references

The transaction that made an output, and its place there. The order is the one the ledger keeps
inputs in.
-/

namespace ConwayTx

@[ext]
structure TxIn where
  txId : TxId
  index : UInt32
deriving DecidableEq

namespace TxIn

instance : Ord TxIn := ⟨compareLex (compareOn txId) (compareOn index)⟩

instance : Std.TransOrd TxIn :=
  inferInstanceAs (Std.TransCmp (compareLex (compareOn txId) (compareOn index)))

instance : Std.LawfulEqOrd TxIn where
  eq_of_compare {a b} h := by
    have same : compareLex (compareOn txId) (compareOn index) a b = .eq := h
    simp only [compareLex, compareOn, Ordering.then_eq_eq] at same
    exact TxIn.ext (Std.LawfulEqCmp.eq_of_compare same.1) (Std.LawfulEqCmp.eq_of_compare same.2)

def display (r : TxIn) : String := s!"{r.txId}#{r.index.toNat}"

instance : ToString TxIn := ⟨display⟩

def toCbor (r : TxIn) : Cbor := .array [.bytes r.txId.bytes, .unsigned r.index.toUInt64]

end TxIn

end ConwayTx
