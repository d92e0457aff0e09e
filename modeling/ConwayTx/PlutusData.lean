import ConwayTx.Cbor
import ConwayTx.Digest.Blake2b

/-!
# Plutus data

Structured data passed to scripts, in the one binary form whose hash identifies a datum.
-/

namespace ConwayTx

inductive PlutusData where
  | constr (tag : UInt64) (fields : List PlutusData)
  | map (entries : List (PlutusData × PlutusData))
  | list (items : List PlutusData)
  | integer (n : Int)
  | bytes (content : Bytes)

namespace PlutusData

def unit : PlutusData := .constr 0 []

instance : Inhabited PlutusData := ⟨unit⟩

/-! ### Equality -/

mutual

def same : PlutusData → PlutusData → Bool
  | constr t xs, constr u ys => t = u && sameAll xs ys
  | map xs, map ys => samePairs xs ys
  | list xs, list ys => sameAll xs ys
  | integer m, integer n => m = n
  | bytes a, bytes b => a = b
  | _, _ => false

def sameAll : List PlutusData → List PlutusData → Bool
  | [], [] => true
  | x :: xs, y :: ys => same x y && sameAll xs ys
  | _, _ => false

def samePairs : List (PlutusData × PlutusData) → List (PlutusData × PlutusData) → Bool
  | [], [] => true
  | (k, v) :: xs, (l, w) :: ys => same k l && same v w && samePairs xs ys
  | _, _ => false

end

mutual

theorem same_iff (a b : PlutusData) : same a b ↔ a = b := by
  cases a <;> cases b <;> simp [same, sameAll_iff, samePairs_iff]

theorem sameAll_iff (xs ys : List PlutusData) : sameAll xs ys ↔ xs = ys := by
  cases xs <;> cases ys <;> simp [sameAll, same_iff, sameAll_iff]

theorem samePairs_iff (xs ys : List (PlutusData × PlutusData)) : samePairs xs ys ↔ xs = ys := by
  rcases xs with _ | ⟨⟨k, v⟩, xs⟩ <;> rcases ys with _ | ⟨⟨l, w⟩, ys⟩ <;>
    simp [samePairs, same_iff, samePairs_iff]

end

instance : DecidableEq PlutusData := fun a b => decidable_of_iff _ (same_iff a b)

/-! ### Binary form -/

def pieceSize : Nat := 64

/-- Strings longer than a piece are cut. -/
def bytesToCbor (content : Bytes) : Cbor :=
  if content.length ≤ pieceSize then .bytes content else .pieces (Bytes.chunks pieceSize content)

/-- Integers beyond the two integer types are byte strings under tag 2, or under tag 3 for `-1 - n`. -/
def integerToCbor (n : Int) : Cbor :=
  match Cbor.ofInt? n with
  | some item => item
  | none =>
    match n with
    | .ofNat m => .tagged 2 (bytesToCbor (Bytes.shortest m))
    | .negSucc m => .tagged 3 (bytesToCbor (Bytes.shortest m))

/-- Lists are open, except the empty one. -/
def listToCbor (items : List Cbor) : Cbor :=
  if items.isEmpty then .array [] else .openArray items

/-- Constructors have compact tags up to 6 and from 7 to 127; others are written out. -/
def constrToCbor (tag : UInt64) (fields : Cbor) : Cbor :=
  if tag ≤ 6 then .tagged (121 + tag) fields
  else if tag ≤ 127 then .tagged (1280 + tag - 7) fields
  else .tagged 102 (.array [.unsigned tag, fields])

mutual

def toCbor : PlutusData → Cbor
  | constr tag fields => constrToCbor tag (listToCbor (allToCbor fields))
  | map entries => .map (pairsToCbor entries)
  | list items => listToCbor (allToCbor items)
  | integer n => integerToCbor n
  | bytes content => bytesToCbor content

def allToCbor : List PlutusData → List Cbor
  | [] => []
  | item :: rest => toCbor item :: allToCbor rest

def pairsToCbor : List (PlutusData × PlutusData) → List (Cbor × Cbor)
  | [] => []
  | (key, value) :: rest => (toCbor key, toCbor value) :: pairsToCbor rest

end

def encode (data : PlutusData) : Bytes := data.toCbor.encode

def hash (data : PlutusData) : DatumHash := blake2b256 data.encode

end PlutusData

/-- What an output says about its datum. -/
inductive Datum where
  /-- The datum itself travels elsewhere. -/
  | hash (hash : DatumHash)
  | inline (data : PlutusData)
deriving DecidableEq

def Datum.toCbor : Datum → Cbor
  | hash h => .array [.small 0, .bytes h.bytes]
  | inline data => .array [.small 1, .tagged 24 (.bytes data.encode)]

end ConwayTx
