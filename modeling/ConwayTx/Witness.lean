import ConwayTx.Redeemer
import ConwayTx.Script

/-!
# Witness sets

Signatures, scripts, datums and redeemers that make a transaction valid. Empty parts are left out.
-/

namespace ConwayTx

structure KeyWitness where
  key : VerificationKey
  signature : Signature
deriving DecidableEq

namespace KeyWitness

/-- As large as a real one. -/
def placeholder : KeyWitness := ⟨.zero, .zero⟩

def toCbor (w : KeyWitness) : Cbor := .array [.bytes w.key.bytes, .bytes w.signature.bytes]

end KeyWitness

def datumsToCbor (datums : List PlutusData) : Cbor := .array (datums.map PlutusData.toCbor)

structure WitnessSet where
  keys : List KeyWitness := []
  nativeScripts : List NativeScript := []
  plutusScripts : List PlutusScript := []
  datums : List PlutusData := []
  redeemers : Redeemers := ∅

namespace WitnessSet

instance : Inhabited WitnessSet := ⟨{}⟩

/-- One witness a key: the first stays. -/
def addKey (w : WitnessSet) (witness : KeyWitness) : WitnessSet :=
  if w.keys.any (·.key = witness.key) then w else { w with keys := w.keys ++ [witness] }

def unlessEmpty (items : List Cbor) : Option Cbor :=
  if items.isEmpty then none else some (.array items)

def scriptsOf (w : WitnessSet) (version : PlutusVersion) : List Cbor :=
  (w.plutusScripts.filter (·.version = version)).map fun script => .bytes script.bytes

def toCbor (w : WitnessSet) : Cbor :=
  .fields [
    (0, unlessEmpty (w.keys.map KeyWitness.toCbor)),
    (1, unlessEmpty (w.nativeScripts.map NativeScript.toCbor)),
    (3, unlessEmpty (w.scriptsOf .v1)),
    (4, if w.datums.isEmpty then none else some (datumsToCbor w.datums)),
    (5, if w.redeemers.isEmpty then none else some w.redeemers.toCbor),
    (6, unlessEmpty (w.scriptsOf .v2)),
    (7, unlessEmpty (w.scriptsOf .v3))]

end WitnessSet

end ConwayTx
