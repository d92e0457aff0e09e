import ConwayTx.Cbor
import ConwayTx.Digest.Blake2b
import ConwayTx.EncodeError
import ConwayTx.SortedMap

/-!
# Metadata

Labelled data attached to a transaction. Strings hold at most 64 bytes and integers are those of the
two integer types; `Metadatum.isWithinLimits` says so.
-/

namespace ConwayTx

inductive Metadatum where
  | int (n : Int)
  | bytes (content : Bytes)
  | text (content : String)
  | list (items : List Metadatum)
  | map (entries : List (Metadatum × Metadatum))

namespace Metadatum

def maxLength : Nat := 64

mutual

def isWithinLimits : Metadatum → Bool
  | int n => (Cbor.ofInt? n).isSome
  | bytes content => content.length ≤ maxLength
  | text content => (Bytes.ofText content).length ≤ maxLength
  | list items => allWithinLimits items
  | map entries => pairsWithinLimits entries

def allWithinLimits : List Metadatum → Bool
  | [] => true
  | item :: rest => isWithinLimits item && allWithinLimits rest

def pairsWithinLimits : List (Metadatum × Metadatum) → Bool
  | [] => true
  | (key, value) :: rest => isWithinLimits key && isWithinLimits value && pairsWithinLimits rest

end

mutual

/-- Only integers can fail; long strings are written as they are. -/
def toCbor : Metadatum → Except EncodeError Cbor
  | int n =>
    match Cbor.ofInt? n with
    | some item => .ok item
    | none => .error (.outOfRange .metadatumInteger)
  | bytes content => .ok (.bytes content)
  | text content => .ok (.text content)
  | list items => Cbor.array <$> allToCbor items
  | map entries => Cbor.map <$> pairsToCbor entries

def allToCbor : List Metadatum → Except EncodeError (List Cbor)
  | [] => .ok []
  | item :: rest => do return (← toCbor item) :: (← allToCbor rest)

def pairsToCbor : List (Metadatum × Metadatum) → Except EncodeError (List (Cbor × Cbor))
  | [] => .ok []
  | (key, value) :: rest => do
    return (← toCbor key, ← toCbor value) :: (← pairsToCbor rest)

end

end Metadatum

abbrev Metadata := SortedMap UInt64 Metadatum

namespace Metadata

def toCbor (m : Metadata) : Except EncodeError Cbor :=
  Cbor.map <$> m.entries.mapM fun (label, datum) => do return (.unsigned label, ← datum.toCbor)

def hash (m : Metadata) : Except EncodeError (Digest 32) := do
  return blake2b256 (← m.toCbor).encode

/-- The first label whose datum is outside the limits. -/
def outside? (m : Metadata) : Option UInt64 :=
  (m.entries.find? fun (_, datum) => !datum.isWithinLimits).map (·.1)

end Metadata

end ConwayTx
