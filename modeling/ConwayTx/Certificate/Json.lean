import ConwayTx.Address.Json
import ConwayTx.Certificate
import ConwayTx.Fraction.Json

/-!
# Certificates in JSON
-/

namespace ConwayTx

namespace DRep

def toJson : DRep → Json
  | key hash => .variant "Key" hash.toJson
  | script hash => .variant "Script" hash.toJson
  | abstain => .ofText "Abstain"
  | noConfidence => .ofText "NoConfidence"

def ofJson? (j : Json) : Option DRep :=
  match j.variant? with
  | some ("Key", hash) => (Digest.ofJson? hash).map key
  | some ("Script", hash) => (Digest.ofJson? hash).map script
  | some ("Abstain", .null) => some abstain
  | some ("NoConfidence", .null) => some noConfidence
  | _ => none

end DRep

namespace Relay

def portToJson : Option UInt16 → Json := Json.ofOption fun port => .ofNat port.toNat

def toJson : Relay → Json
  | hostAddress port ipv4 ipv6 =>
    .variant "SingleHostAddr" (.record [("port", portToJson port),
      ("ipv4", .ofOption (fun ip => .ofBytes ip.toList) ipv4),
      ("ipv6", .ofOption (fun ip => .ofBytes ip.toList) ipv6)])
  | hostName port dnsName =>
    .variant "SingleHostName" (.record [("port", portToJson port), ("dns_name", .ofText dnsName)])
  | multiHost dnsName => .variant "MultiHostName" (.record [("dns_name", .ofText dnsName)])

def ofJson? (j : Json) : Option Relay := do
  match ← j.variant? with
  | ("SingleHostAddr", content) =>
    let [port, ipv4, ipv6] ← content.fields? ["port", "ipv4", "ipv6"] | none
    return hostAddress (← Json.optional? Json.uint16? port) (← Json.optional? (Json.vector? 4) ipv4)
      (← Json.optional? (Json.vector? 16) ipv6)
  | ("SingleHostName", content) =>
    let [port, some dnsName] ← content.fields? ["port", "dns_name"] | none
    return hostName (← Json.optional? Json.uint16? port) (← dnsName.text?)
  | ("MultiHostName", content) =>
    let [some dnsName] ← content.fields? ["dns_name"] | none
    return multiHost (← dnsName.text?)
  | _ => none

end Relay

namespace PoolMetadata

def toJson (m : PoolMetadata) : Json :=
  .record [("url", .ofText m.url), ("hash", .ofText (Hex.encode m.hash))]

def ofJson? (j : Json) : Option PoolMetadata := do
  let [some url, some hash] ← j.fields? ["url", "hash"] | none
  return ⟨← url.text?, ← (Hex.decode (← hash.text?)).toOption⟩

end PoolMetadata

namespace PoolParams

def toJson (p : PoolParams) : Json :=
  .record [("operator", p.operator.toJson), ("vrf_key_hash", p.vrfKeyHash.toJson),
    ("pledge", .ofNat p.pledge.toNat), ("cost", .ofNat p.cost.toNat), ("margin", p.margin.toJson),
    ("reward_account", p.rewardAccount.toJson),
    ("pool_owners", .array (p.owners.map Digest.toJson)),
    ("relays", .array (p.relays.map Relay.toJson)),
    ("pool_metadata", .ofOption PoolMetadata.toJson p.metadata)]

def ofJson? (j : Json) : Option PoolParams := do
  let [some operator, some vrfKeyHash, some pledge, some cost, some margin, some rewardAccount,
    some owners, some relays, metadata] ←
      j.fields? ["operator", "vrf_key_hash", "pledge", "cost", "margin", "reward_account",
        "pool_owners", "relays", "pool_metadata"] | none
  return {
    operator := ← Digest.ofJson? operator
    vrfKeyHash := ← Digest.ofJson? vrfKeyHash
    pledge := ← pledge.uint64?
    cost := ← cost.uint64?
    margin := ← Fraction.ofJson? margin
    rewardAccount := ← StakeAddress.ofJson? rewardAccount
    owners := ← owners.list? Digest.ofJson?
    relays := ← relays.list? Relay.ofJson?
    metadata := ← Json.optional? PoolMetadata.ofJson? metadata }

end PoolParams

namespace Certificate

def toJson : Certificate → Json
  | stakeRegistration credential => .variant "StakeRegistration" credential.toJson
  | stakeDeregistration credential => .variant "StakeDeregistration" credential.toJson
  | stakeDelegation credential pool =>
    .variant "StakeDelegation" (.record [("credential", credential.toJson), ("pool", pool.toJson)])
  | poolRegistration params => .variant "PoolRegistration" params.toJson
  | poolRetirement pool epoch =>
    .variant "PoolRetirement" (.record [("pool", pool.toJson), ("epoch", .ofNat epoch.toNat)])
  | registration credential => .variant "Registration" credential.toJson
  | deregistration credential => .variant "Deregistration" credential.toJson
  | voteDelegation credential drep =>
    .variant "VoteDelegation" (.record [("credential", credential.toJson), ("drep", drep.toJson)])
  | stakeVoteDelegation credential pool drep =>
    .variant "StakeVoteDelegation"
      (.record [("credential", credential.toJson), ("pool", pool.toJson), ("drep", drep.toJson)])
  | stakeRegistrationDelegation credential pool =>
    .variant "StakeRegistrationDelegation"
      (.record [("credential", credential.toJson), ("pool", pool.toJson)])
  | voteRegistrationDelegation credential drep =>
    .variant "VoteRegistrationDelegation"
      (.record [("credential", credential.toJson), ("drep", drep.toJson)])
  | stakeVoteRegistrationDelegation credential pool drep =>
    .variant "StakeVoteRegistrationDelegation"
      (.record [("credential", credential.toJson), ("pool", pool.toJson), ("drep", drep.toJson)])

def withPoolOfJson? (make : Credential → PoolId → Certificate) (j : Json) : Option Certificate := do
  let [some credential, some pool] ← j.fields? ["credential", "pool"] | none
  return make (← Credential.ofJson? credential) (← Digest.ofJson? pool)

def withDRepOfJson? (make : Credential → DRep → Certificate) (j : Json) : Option Certificate := do
  let [some credential, some drep] ← j.fields? ["credential", "drep"] | none
  return make (← Credential.ofJson? credential) (← DRep.ofJson? drep)

def withBothOfJson? (make : Credential → PoolId → DRep → Certificate) (j : Json) :
    Option Certificate := do
  let [some credential, some pool, some drep] ← j.fields? ["credential", "pool", "drep"] | none
  return make (← Credential.ofJson? credential) (← Digest.ofJson? pool) (← DRep.ofJson? drep)

def retirementOfJson? (j : Json) : Option Certificate := do
  let [some pool, some epoch] ← j.fields? ["pool", "epoch"] | none
  return poolRetirement (← Digest.ofJson? pool) (← epoch.uint64?)

def ofJson? (j : Json) : Option Certificate := do
  match ← j.variant? with
  | ("StakeRegistration", content) => (Credential.ofJson? content).map stakeRegistration
  | ("StakeDeregistration", content) => (Credential.ofJson? content).map stakeDeregistration
  | ("StakeDelegation", content) => withPoolOfJson? stakeDelegation content
  | ("PoolRegistration", content) => (PoolParams.ofJson? content).map poolRegistration
  | ("PoolRetirement", content) => retirementOfJson? content
  | ("Registration", content) => (Credential.ofJson? content).map registration
  | ("Deregistration", content) => (Credential.ofJson? content).map deregistration
  | ("VoteDelegation", content) => withDRepOfJson? voteDelegation content
  | ("StakeVoteDelegation", content) => withBothOfJson? stakeVoteDelegation content
  | ("StakeRegistrationDelegation", content) => withPoolOfJson? stakeRegistrationDelegation content
  | ("VoteRegistrationDelegation", content) => withDRepOfJson? voteRegistrationDelegation content
  | ("StakeVoteRegistrationDelegation", content) =>
    withBothOfJson? stakeVoteRegistrationDelegation content
  | _ => none

end Certificate

end ConwayTx
