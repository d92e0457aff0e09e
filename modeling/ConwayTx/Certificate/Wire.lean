import ConwayTx.Certificate

/-!
# Certificates on the wire

Each certificate is an array that starts with its kind. Registrations and deregistrations of the
newer kinds state the key deposit.
-/

namespace ConwayTx

def DRep.toCbor : DRep → Cbor
  | key hash => .array [.small 0, .bytes hash.bytes]
  | script hash => .array [.small 1, .bytes hash.bytes]
  | abstain => .array [.small 2]
  | noConfidence => .array [.small 3]

def Relay.toCbor : Relay → Cbor
  | hostAddress port ipv4 ipv6 =>
    .array [.small 0, .option (port.map fun p => .unsigned p.toUInt64),
      .option (ipv4.map fun ip => .bytes ip.toList), .option (ipv6.map fun ip => .bytes ip.toList)]
  | hostName port dnsName =>
    .array [.small 1, .option (port.map fun p => .unsigned p.toUInt64), .text dnsName]
  | multiHost dnsName => .array [.small 2, .text dnsName]

def PoolMetadata.toCbor (m : PoolMetadata) : Cbor := .array [.text m.url, .bytes m.hash]

def Fraction.toCbor (f : Fraction) : Cbor := .tagged 30 (.array [.unsigned f.numer, .unsigned f.denom])

def PoolParams.items (p : PoolParams) : List Cbor := [
  .bytes p.operator.bytes, .bytes p.vrfKeyHash.bytes, .unsigned p.pledge, .unsigned p.cost,
  p.margin.toCbor, p.rewardAccount.toCbor, .array (p.owners.map fun owner => .bytes owner.bytes),
  .array (p.relays.map Relay.toCbor), .option (p.metadata.map PoolMetadata.toCbor)]

namespace Certificate

/-- What follows the kind. -/
def items (keyDeposit : Amount) : Certificate → List Cbor
  | stakeRegistration c | stakeDeregistration c => [c.toCbor]
  | stakeDelegation c pool => [c.toCbor, .bytes pool.bytes]
  | poolRegistration params => params.items
  | poolRetirement pool epoch => [.bytes pool.bytes, .unsigned epoch]
  | registration c | deregistration c => [c.toCbor, .unsigned keyDeposit]
  | voteDelegation c drep => [c.toCbor, drep.toCbor]
  | stakeVoteDelegation c pool drep => [c.toCbor, .bytes pool.bytes, drep.toCbor]
  | stakeRegistrationDelegation c pool => [c.toCbor, .bytes pool.bytes, .unsigned keyDeposit]
  | voteRegistrationDelegation c drep => [c.toCbor, drep.toCbor, .unsigned keyDeposit]
  | stakeVoteRegistrationDelegation c pool drep =>
    [c.toCbor, .bytes pool.bytes, drep.toCbor, .unsigned keyDeposit]

def toCbor (keyDeposit : Amount) (c : Certificate) : Cbor :=
  .array (.small c.kind :: c.items keyDeposit)

end Certificate

end ConwayTx
