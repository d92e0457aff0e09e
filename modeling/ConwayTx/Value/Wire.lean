import ConwayTx.Cbor
import ConwayTx.EncodeError
import ConwayTx.Value

/-!
# Values and mints on the wire

A value is its coin, or coin and assets; only quantities above zero are written. A mint writes every
quantity other than zero.
-/

namespace ConwayTx

namespace MultiAsset

/-- The entries that are kept, under their policies; policies without any are left out. -/
def kept (keep : Int → Bool) (m : MultiAsset) : List (PolicyId × List (AssetName × Int)) :=
  (m.entries.map fun (policy, names) => (policy, names.entries.filter fun (_, q) => keep q)).filter
    fun (_, names) => !names.isEmpty

def quantitiesToCbor (quantity : Int → Except EncodeError Cbor) (names : List (AssetName × Int)) :
    Except EncodeError Cbor :=
  Cbor.map <$> names.mapM fun (name, q) => do return (.bytes name.bytes, ← quantity q)

def keptToCbor (quantity : Int → Except EncodeError Cbor)
    (policies : List (PolicyId × List (AssetName × Int))) : Except EncodeError Cbor :=
  Cbor.map <$> policies.mapM fun (policy, names) => do
    return (.bytes policy.bytes, ← quantitiesToCbor quantity names)

def heldToCbor (q : Int) : Except EncodeError Cbor :=
  match Amount.ofNat? q.toNat with
  | some n => .ok (.unsigned n)
  | none => .error (.outOfRange .assetQuantity)

def mintedToCbor (q : Int) : Except EncodeError Cbor :=
  match Amount.signed? q with
  | some quantity => .ok (.ofInt64 quantity)
  | none => .error (.outOfRange .mintQuantity)

def toCbor (m : MultiAsset) : Except EncodeError Cbor := keptToCbor heldToCbor (m.kept (0 < ·))

def mintToCbor (m : MultiAsset) : Except EncodeError Cbor := keptToCbor mintedToCbor (m.kept (· ≠ 0))

end MultiAsset

def Value.toCbor (v : Value) : Except EncodeError Cbor :=
  if v.hasAssets then do return .array [.unsigned v.coin, ← v.bundle.toCbor]
  else .ok (.unsigned v.coin)

end ConwayTx
