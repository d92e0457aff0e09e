import ConwayTx.BuildError
import ConwayTx.Digest.Blake2b
import ConwayTx.Ed25519
import ConwayTx.Witness

/-!
# Wallets

Owners of funds: known by an address alone, or by keys that can sign.
-/

namespace ConwayTx

/-- An Ed25519 seed, and one more for the stake key if there is any. -/
structure KeyPair where
  network : Network
  seed : Digest 32
  stakeSeed : Option (Digest 32) := none

inductive Wallet where
  | external (address : Address)
  | keyPair (keys : KeyPair)

def KeyWitness.ofSeed (seed : Digest 32) (bodyHash : TxId) : KeyWitness :=
  ⟨Ed25519.publicKey seed, Ed25519.sign seed bodyHash.bytes⟩

namespace KeyPair

def hashOf (seed : Digest 32) : KeyHash := blake2b224 (Ed25519.publicKey seed).bytes

def paymentKeyHash (k : KeyPair) : KeyHash := hashOf k.seed

def stakeKeyHash? (k : KeyPair) : Option KeyHash := k.stakeSeed.map hashOf

def verificationKey (k : KeyPair) : VerificationKey := Ed25519.publicKey k.seed

/-- A base address when there is a stake key. -/
def address (k : KeyPair) : Address :=
  match k.stakeKeyHash? with
  | some stake => .base k.network (.key k.paymentKeyHash) (.key stake)
  | none => .enterprise k.network (.key k.paymentKeyHash)

end KeyPair

namespace Wallet

def address : Wallet → Address
  | external address => address
  | keyPair keys => keys.address

def verificationKey? : Wallet → Option VerificationKey
  | external _ => none
  | keyPair keys => some keys.verificationKey

def paymentKeyHash? : Wallet → Option KeyHash
  | external address => address.paymentCredential?.bind Credential.keyHash?
  | keyPair keys => some keys.paymentKeyHash

def stakeKeyHash? : Wallet → Option KeyHash
  | external address => address.stakeCredential?.bind Credential.keyHash?
  | keyPair keys => keys.stakeKeyHash?

def sign (bodyHash : TxId) : Wallet → Except NoSigningKey KeyWitness
  | external address => .error ⟨address⟩
  | keyPair keys => .ok (KeyWitness.ofSeed keys.seed bodyHash)

end Wallet

end ConwayTx
