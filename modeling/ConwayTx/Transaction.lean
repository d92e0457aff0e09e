import ConwayTx.Certificate.Wire
import ConwayTx.Metadata
import ConwayTx.Output
import ConwayTx.Witness

/-!
# Transactions

A transaction body, its witnesses, and its metadata. The hash of the body identifies the
transaction.
-/

namespace ConwayTx

namespace StakeAddress

theorem toBytes_inj {a b : StakeAddress} (h : a.toBytes = b.toBytes) : a = b := by
  obtain ⟨na, ca⟩ := a
  obtain ⟨nb, cb⟩ := b
  obtain ⟨header, content⟩ := List.cons.inj h
  have hash : ca.hash = cb.hash := Digest.ext content
  cases na <;> cases nb <;> cases ca <;> cases cb <;>
    simp_all [Network.number, Credential.kind, Credential.hash] <;> exact absurd header (by decide)

instance : Ord StakeAddress := ⟨compareOn toBytes⟩

instance : Std.TransOrd StakeAddress := inferInstanceAs (Std.TransCmp (compareOn toBytes))

instance : Std.LawfulEqOrd StakeAddress where
  eq_of_compare h := toBytes_inj (Bytes.eq_of_compare h)

end StakeAddress

abbrev Withdrawals := SortedMap StakeAddress Amount

def Withdrawals.toCbor (w : Withdrawals) : Cbor :=
  .map (w.entries.map fun (address, amount) => (address.toCbor, .unsigned amount))

structure TxBody where
  inputs : SortedSet TxIn := ∅
  outputs : List TxOutput := []
  fee : Amount := 0
  ttl : Option UInt64 := none
  certificates : List Certificate := []
  /-- The deposit that registrations state. -/
  keyDeposit : Amount := 0
  withdrawals : Withdrawals := ∅
  metadataHash : Option (Digest 32) := none
  validityStart : Option UInt64 := none
  mint : Option MultiAsset := none
  scriptDataHash : Option (Digest 32) := none
  collateral : SortedSet TxIn := ∅
  requiredSigners : SortedSet KeyHash := ∅
  network : Option Network := none
  collateralReturn : Option TxOutput := none
  totalCollateral : Option Amount := none
  referenceInputs : SortedSet TxIn := ∅

namespace TxBody

instance : Inhabited TxBody := ⟨{}⟩

def refsToCbor (refs : SortedSet TxIn) : Cbor := .array (refs.keys.map TxIn.toCbor)

def unlessEmpty {κ α : Type} [Ord κ] (m : SortedMap κ α) (item : Cbor) : Option Cbor :=
  if m.isEmpty then none else some item

/-- Inputs, outputs and fee are always there; other fields only when set or not empty. -/
def toCbor (b : TxBody) : Except EncodeError Cbor := do
  let outputs ← b.outputs.mapM TxOutput.toCbor
  let mint ← b.mint.mapM MultiAsset.mintToCbor
  let collateralReturn ← b.collateralReturn.mapM TxOutput.toCbor
  return .fields [
    (0, some (refsToCbor b.inputs)),
    (1, some (.array outputs)),
    (2, some (.unsigned b.fee)),
    (3, b.ttl.map .unsigned),
    (4, if b.certificates.isEmpty then none
        else some (.array (b.certificates.map (Certificate.toCbor b.keyDeposit)))),
    (5, unlessEmpty b.withdrawals b.withdrawals.toCbor),
    (7, b.metadataHash.map fun hash => .bytes hash.bytes),
    (8, b.validityStart.map .unsigned),
    (9, mint),
    (11, b.scriptDataHash.map fun hash => .bytes hash.bytes),
    (13, unlessEmpty b.collateral (refsToCbor b.collateral)),
    (14, unlessEmpty b.requiredSigners
        (.array (b.requiredSigners.keys.map fun key => .bytes key.bytes))),
    (15, b.network.map fun network => .small network.number),
    (16, collateralReturn),
    (17, b.totalCollateral.map .unsigned),
    (18, unlessEmpty b.referenceInputs (refsToCbor b.referenceInputs))]

def encode (b : TxBody) : Except EncodeError Bytes := do return (← b.toCbor).encode

def hash (b : TxBody) : Except EncodeError TxId := do return blake2b256 (← b.encode)

end TxBody

structure Transaction where
  body : TxBody
  witnesses : WitnessSet
  metadata : Option Metadata := none
  isValid : Bool := true

namespace Transaction

def toCbor (t : Transaction) : Except EncodeError Cbor := do
  let body ← t.body.toCbor
  let metadata ← t.metadata.mapM Metadata.toCbor
  return .array [body, t.witnesses.toCbor, .bool t.isValid, .option metadata]

def encode (t : Transaction) : Except EncodeError Bytes := do return (← t.toCbor).encode

def size (t : Transaction) : Except EncodeError Nat := do return (← t.encode).length

def hash (t : Transaction) : Except EncodeError TxId := t.body.hash

end Transaction

end ConwayTx
