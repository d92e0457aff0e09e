import ConwayTx.Amount
import ConwayTx.Bytes

/-!
# CBOR items

The items the ledger's binary formats are made of, and their bytes. Headers use the shortest form that
holds their number.
-/

namespace ConwayTx

inductive Cbor where
  | unsigned (n : UInt64)
  /-- Stands for `-1 - n`. -/
  | negative (n : UInt64)
  | bytes (content : Bytes)
  /-- A byte string of indefinite length, in pieces. -/
  | pieces (content : List Bytes)
  | text (content : String)
  | array (items : List Cbor)
  /-- An array of indefinite length. -/
  | openArray (items : List Cbor)
  | map (entries : List (Cbor × Cbor))
  | tagged (tag : UInt64) (item : Cbor)
  | bool (b : Bool)
  | null

namespace Cbor

/-- The header of an item: its major type and a number. -/
def head (major : Nat) (n : Nat) : Bytes :=
  if n < 24 then [UInt8.ofNat (32 * major + n)]
  else if n < UInt8.size then UInt8.ofNat (32 * major + 24) :: Bytes.bigEndian 1 n
  else if n < UInt16.size then UInt8.ofNat (32 * major + 25) :: Bytes.bigEndian 2 n
  else if n < UInt32.size then UInt8.ofNat (32 * major + 26) :: Bytes.bigEndian 4 n
  else UInt8.ofNat (32 * major + 27) :: Bytes.bigEndian 8 n

def byteString (content : Bytes) : Bytes := head 2 content.length ++ content

def stop : UInt8 := 0xff

mutual

def encode : Cbor → Bytes
  | unsigned n => head 0 n.toNat
  | negative n => head 1 n.toNat
  | bytes content => byteString content
  | pieces content => 0x5f :: content.flatMap byteString ++ [stop]
  | text content => head 3 (Bytes.ofText content).length ++ Bytes.ofText content
  | array items => head 4 items.length ++ encodeAll items
  | openArray items => 0x9f :: encodeAll items ++ [stop]
  | map entries => head 5 entries.length ++ encodePairs entries
  | tagged tag item => head 6 tag.toNat ++ encode item
  | bool false => [0xf4]
  | bool true => [0xf5]
  | null => [0xf6]

def encodeAll : List Cbor → Bytes
  | [] => []
  | item :: rest => encode item ++ encodeAll rest

def encodePairs : List (Cbor × Cbor) → Bytes
  | [] => []
  | (key, value) :: rest => encode key ++ encode value ++ encodePairs rest

end

/-- Small numbers, as keys and variant tags. -/
def small (n : UInt8) : Cbor := .unsigned n.toUInt64

/-- An integer in the range of the two integer types. -/
def ofInt? : Int → Option Cbor
  | .ofNat n => (Amount.ofNat? n).map .unsigned
  | .negSucc n => (Amount.ofNat? n).map .negative

/-- The complement of a negative word is the number its item stands for. -/
def ofInt64 (n : Int64) : Cbor :=
  if 0 ≤ n then .unsigned n.toUInt64 else .negative (~~~n).toUInt64

def option : Option Cbor → Cbor
  | some item => item
  | none => .null

/-- The entries that are present, under their keys. -/
def fields (entries : List (UInt8 × Option Cbor)) : Cbor :=
  .map (entries.filterMap fun (key, value) => value.map (small key, ·))

end Cbor

end ConwayTx
