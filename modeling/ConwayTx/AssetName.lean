import ConwayTx.InputError

/-!
# Asset names

At most 32 bytes. Shorter names come first, names of one length bytewise, which is the canonical
order of byte strings as map keys.
-/

namespace ConwayTx

@[ext]
structure AssetName where
  bytes : Bytes
  length_le : bytes.length ≤ 32
deriving DecidableEq

namespace AssetName

def length (n : AssetName) : Nat := n.bytes.length

instance : Ord AssetName := ⟨compareLex (compareOn length) (compareOn bytes)⟩

instance : Std.TransOrd AssetName :=
  inferInstanceAs (Std.TransCmp (compareLex (compareOn length) (compareOn bytes)))

instance : Std.LawfulEqOrd AssetName where
  eq_of_compare {a b} h := by
    have same : compareLex (compareOn length) (compareOn bytes) a b = .eq := h
    simp only [compareLex, Ordering.then_eq_eq] at same
    exact AssetName.ext (Bytes.eq_of_compare same.2)

def ofBytes? (bytes : Bytes) : Option AssetName :=
  if h : bytes.length ≤ 32 then some ⟨bytes, h⟩ else none

def toHex (n : AssetName) : String := Hex.encode n.bytes

instance : ToString AssetName := ⟨toHex⟩

def ofHex (text : String) : Except InputError AssetName :=
  match Hex.decode text with
  | .error _ => .error (.invalidHex .assetName text)
  | .ok bytes =>
    match ofBytes? bytes with
    | some name => .ok name
    | none => .error (.assetNameTooLong bytes.length)

end AssetName

end ConwayTx
