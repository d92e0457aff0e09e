import ConwayTx.Address.Raw
import ConwayTx.ProtocolParams

/-!
# Certificates

Registrations, delegations and pool operations. What a certificate locks or releases follows from
the protocol parameters and is not stored in it.
-/

namespace ConwayTx

inductive DRep where
  | key (hash : KeyHash)
  | script (hash : ScriptHash)
  | abstain
  | noConfidence
deriving DecidableEq

inductive Relay where
  | hostAddress (port : Option UInt16) (ipv4 : Option (Vector UInt8 4)) (ipv6 : Option (Vector UInt8 16))
  | hostName (port : Option UInt16) (dnsName : String)
  | multiHost (dnsName : String)
deriving DecidableEq

structure PoolMetadata where
  url : String
  hash : Bytes
deriving DecidableEq

structure PoolParams where
  operator : PoolId
  vrfKeyHash : Digest 32
  pledge : Amount
  cost : Amount
  margin : Fraction
  rewardAccount : StakeAddress
  owners : List KeyHash
  relays : List Relay
  metadata : Option PoolMetadata
deriving DecidableEq

inductive Certificate where
  /-- Registration that leaves the deposit implicit. -/
  | stakeRegistration (credential : Credential)
  | stakeDeregistration (credential : Credential)
  | stakeDelegation (credential : Credential) (pool : PoolId)
  | poolRegistration (params : PoolParams)
  | poolRetirement (pool : PoolId) (epoch : UInt64)
  /-- Registration that states its deposit. -/
  | registration (credential : Credential)
  | deregistration (credential : Credential)
  | voteDelegation (credential : Credential) (drep : DRep)
  | stakeVoteDelegation (credential : Credential) (pool : PoolId) (drep : DRep)
  | stakeRegistrationDelegation (credential : Credential) (pool : PoolId)
  | voteRegistrationDelegation (credential : Credential) (drep : DRep)
  | stakeVoteRegistrationDelegation (credential : Credential) (pool : PoolId) (drep : DRep)
deriving DecidableEq

namespace Certificate

def kind : Certificate → UInt8
  | stakeRegistration .. => 0
  | stakeDeregistration .. => 1
  | stakeDelegation .. => 2
  | poolRegistration .. => 3
  | poolRetirement .. => 4
  | registration .. => 7
  | deregistration .. => 8
  | voteDelegation .. => 9
  | stakeVoteDelegation .. => 10
  | stakeRegistrationDelegation .. => 11
  | voteRegistrationDelegation .. => 12
  | stakeVoteRegistrationDelegation .. => 13

def credential? : Certificate → Option Credential
  | stakeRegistration c | stakeDeregistration c | registration c | deregistration c => some c
  | stakeDelegation c _ | voteDelegation c _ | stakeVoteDelegation c _ _ => some c
  | stakeRegistrationDelegation c _ | voteRegistrationDelegation c _ => some c
  | stakeVoteRegistrationDelegation c _ _ => some c
  | poolRegistration _ | poolRetirement .. => none

/-- The credential that has to sign: pool operations and implicit registrations ask for none. -/
def signer? (c : Certificate) : Option Credential :=
  match c with
  | stakeRegistration _ => none
  | c => c.credential?

def deposit (params : ProtocolParams) : Certificate → Amount
  | stakeRegistration _ | registration _ => params.keyDeposit
  | stakeRegistrationDelegation .. | voteRegistrationDelegation .. => params.keyDeposit
  | stakeVoteRegistrationDelegation .. => params.keyDeposit
  | poolRegistration _ => params.poolDeposit
  | _ => 0

def refund (params : ProtocolParams) : Certificate → Amount
  | stakeDeregistration _ | deregistration _ => params.keyDeposit
  | _ => 0

/-- `none` when a word does not hold the total. -/
def totalDeposit? (params : ProtocolParams) (certificates : List Certificate) : Option Amount :=
  Amount.sum? (certificates.map (deposit params))

def totalRefund? (params : ProtocolParams) (certificates : List Certificate) : Option Amount :=
  Amount.sum? (certificates.map (refund params))

end Certificate

end ConwayTx
