import ConwayTx.Cbor
import ConwayTx.Digest

/-!
# Addresses

Payment addresses and stake addresses (CIP-19): a network, the credentials that unlock what sits at
the address, and where its stake is delegated through.
-/

namespace ConwayTx

inductive Network where
  | testnet
  | mainnet
deriving DecidableEq

namespace Network

def number : Network → UInt8
  | testnet => 0
  | mainnet => 1

/-- Every number other than one is a test network. -/
def ofNumber (n : UInt8) : Network := if n = 1 then mainnet else testnet

end Network

inductive Credential where
  | key (hash : KeyHash)
  | script (hash : ScriptHash)
deriving DecidableEq

namespace Credential

def hash : Credential → Digest 28
  | key h => h
  | script h => h

/-- Zero for keys, one for scripts. -/
def kind : Credential → UInt8
  | key _ => 0
  | script _ => 1

def ofKind (kind : UInt8) (hash : Digest 28) : Credential :=
  if kind = 0 then key hash else script hash

def keyHash? : Credential → Option KeyHash
  | key h => some h
  | script _ => none

/-- Keys come before scripts, each bytewise. -/
def sortKey (c : Credential) : Bytes := c.kind :: c.hash.bytes

theorem sortKey_inj {a b : Credential} (h : a.sortKey = b.sortKey) : a = b := by
  cases a <;> cases b <;> simp_all [sortKey, kind, hash, Digest.ext_iff]

instance : Ord Credential := ⟨compareOn sortKey⟩

instance : Std.TransOrd Credential := inferInstanceAs (Std.TransCmp (compareOn sortKey))

instance : Std.LawfulEqOrd Credential where
  eq_of_compare h := sortKey_inj (Bytes.eq_of_compare h)

def toCbor (c : Credential) : Cbor := .array [.small c.kind, .bytes c.hash.bytes]

end Credential

/-- A position on the chain: slot, transaction and certificate. -/
structure ChainPointer where
  slot : UInt64
  txIndex : UInt64
  certIndex : UInt64
deriving DecidableEq

inductive Delegation where
  | none
  | credential (stake : Credential)
  | pointer (position : ChainPointer)
deriving DecidableEq

structure StakeAddress where
  network : Network
  credential : Credential
deriving DecidableEq

inductive Address where
  | payment (network : Network) (credential : Credential) (delegation : Delegation)
  | stake (address : StakeAddress)
deriving DecidableEq

namespace Address

def enterprise (network : Network) (credential : Credential) : Address :=
  .payment network credential .none

def base (network : Network) (credential stake : Credential) : Address :=
  .payment network credential (.credential stake)

def network : Address → Network
  | .payment network _ _ => network
  | .stake address => address.network

def paymentCredential? : Address → Option Credential
  | .payment _ credential _ => some credential
  | .stake _ => .none

/-- A pointer names no credential. -/
def stakeCredential? : Address → Option Credential
  | .payment _ _ (.credential credential) => some credential
  | .stake address => some address.credential
  | .payment .. => .none

end Address

end ConwayTx
