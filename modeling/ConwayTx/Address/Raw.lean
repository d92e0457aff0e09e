import ConwayTx.Address

/-!
# Address bytes

A header of kind and network, the credential hashes, and pointers as three variable-length numbers.
-/

namespace ConwayTx

/-! ### Variable-length numbers -/

namespace Varint

/-- Seven bits a byte, highest first, all marked as followed by more. -/
def leading (n : Nat) : Bytes :=
  if n = 0 then [] else leading (n / 128) ++ [UInt8.ofNat (128 + n % 128)]
termination_by n

def encode (n : UInt64) : Bytes := leading (n.toNat / 128) ++ [UInt8.ofNat (n.toNat % 128)]

/-- Bits above the word are shifted out. -/
def decodeFrom (value : UInt64) : Bytes → Option (UInt64 × Bytes)
  | [] => none
  | b :: rest =>
    let value := (value <<< 7) ||| (b &&& 0x7f).toUInt64
    if b &&& 0x80 = 0 then some (value, rest) else decodeFrom value rest

def decode? (bytes : Bytes) : Option (UInt64 × Bytes) := decodeFrom 0 bytes

end Varint

/-! ### Reading and writing -/

namespace StakeAddress

def toBytes (a : StakeAddress) : Bytes :=
  ((0xe0 : UInt8) ||| (a.credential.kind <<< 4) ||| a.network.number) :: a.credential.hash.bytes

def toCbor (a : StakeAddress) : Cbor := .bytes a.toBytes

end StakeAddress

namespace ChainPointer

def toBytes (p : ChainPointer) : Bytes :=
  Varint.encode p.slot ++ Varint.encode p.txIndex ++ Varint.encode p.certIndex

/-- Bytes after the third number are not looked at. -/
def ofBytes? (bytes : Bytes) : Option ChainPointer := do
  let (slot, rest) ← Varint.decode? bytes
  let (txIndex, rest) ← Varint.decode? rest
  let (certIndex, _) ← Varint.decode? rest
  return ⟨slot, txIndex, certIndex⟩

end ChainPointer

namespace Delegation

/-- The delegation bits of the header and what follows the payment credential. -/
def toBytes : Delegation → UInt8 × Bytes
  | credential stake => (stake.kind, stake.hash.bytes)
  | pointer position => (2, position.toBytes)
  | none => (3, [])

end Delegation

namespace Address

/-- Why bytes are no address. -/
inductive Fault where
  | empty
  | stakeLength (length : Nat)
  | length (length : Nat)
  | baseLength (length : Nat)
  | cutPointer
  | unknownHeader (header : UInt8)
deriving DecidableEq

def Fault.message : Fault → String
  | empty => "empty address"
  | stakeLength n => s!"bad stake address length {n}"
  | length n => s!"bad address length {n}"
  | baseLength n => s!"bad base address length {n}"
  | cutPointer => "pointer ran out of data"
  | unknownHeader header => s!"unsupported address header 0x{Hex.encode [header]}"

def toBytes : Address → Bytes
  | .stake address => address.toBytes
  | .payment network credential delegation =>
    let (bits, tail) := delegation.toBytes
    (network.number ||| (credential.kind <<< 4) ||| (bits <<< 5)) :: credential.hash.bytes ++ tail

def toCbor (a : Address) : Cbor := .bytes a.toBytes

def delegationOf (kind : UInt8) (length : Nat) (tail : Bytes) : Except Fault Delegation :=
  match kind >>> 1 with
  | 2 =>
    match ChainPointer.ofBytes? tail with
    | some position => .ok (.pointer position)
    | none => .error .cutPointer
  | 3 => .ok .none
  | stakeKind =>
    match Digest.ofBytes? tail with
    | some hash => .ok (.credential (Credential.ofKind stakeKind hash))
    | none => .error (.baseLength length)

/-- The kind is in the high half of the header and the network in the low half. Addresses without
delegation may be followed by any bytes. -/
def ofBytes (bytes : Bytes) : Except Fault Address :=
  match bytes with
  | [] => .error .empty
  | header :: content =>
    let network := Network.ofNumber (header &&& 0x0f)
    let kind := header >>> 4
    if kind = 14 ∨ kind = 15 then
      match Digest.ofBytes? content with
      | some hash => .ok (.stake ⟨network, Credential.ofKind (kind &&& 1) hash⟩)
      | none => .error (.stakeLength bytes.length)
    else if kind ≤ 7 then
      match Digest.ofBytes? (content.take 28) with
      | some hash =>
        (delegationOf kind bytes.length (content.drop 28)).map
          (.payment network (Credential.ofKind (kind &&& 1) hash))
      | none => .error (.length bytes.length)
    else .error (.unknownHeader header)

end Address

end ConwayTx
