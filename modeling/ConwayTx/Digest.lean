import ConwayTx.Hex

/-!
# Digests

Byte strings of a fixed size: hashes, keys, signatures and identifiers.
They are ordered bytewise.
-/

namespace ConwayTx

@[ext]
structure Digest (size : Nat) where
  bytes : Bytes
  length_eq : bytes.length = size
deriving DecidableEq

namespace Digest

variable {size : Nat}

instance : Ord (Digest size) := ⟨compareOn bytes⟩

instance : Std.TransOrd (Digest size) := inferInstanceAs (Std.TransCmp (compareOn bytes))

instance : Std.LawfulEqOrd (Digest size) where
  eq_of_compare h := Digest.ext (Bytes.eq_of_compare h)

def ofBytes? (bytes : Bytes) : Option (Digest size) :=
  if h : bytes.length = size then some ⟨bytes, h⟩ else none

def zero : Digest size := ⟨List.replicate size 0, by simp⟩

instance : Inhabited (Digest size) := ⟨zero⟩

def toHex (d : Digest size) : String := Hex.encode d.bytes

instance : ToString (Digest size) := ⟨toHex⟩

/-- The digits together with the size. -/
def describe (d : Digest size) : String := s!"Hash<{size}>(\"{d}\")"

/-- Exactly `2 * size` hexadecimal digits. -/
def ofHex (text : String) : Except Hex.Error (Digest size) :=
  match h : Hex.decodeExactly size text with
  | .ok bytes => .ok ⟨bytes, Hex.length_decodeExactly h⟩
  | .error e => .error e

end Digest

abbrev KeyHash := Digest 28
abbrev ScriptHash := Digest 28
abbrev PolicyId := Digest 28
abbrev PoolId := Digest 28
abbrev TxId := Digest 32
abbrev DatumHash := Digest 32
abbrev VerificationKey := Digest 32
abbrev Signature := Digest 64

/-- Maps keyed by hashes of keys, scripts and policies all share this proof. -/
instance KeyHash.transOrd : Std.TransOrd KeyHash := inferInstanceAs (Std.TransOrd (Digest 28))

end ConwayTx
