import ConwayTx.Proofs.Address
import ConwayTx.Transaction

/-!
# Certificates read back

A certificate starts with its kind, which says what follows. The key deposit is read back from those
kinds that state it, and from no others (`toCbor_eq_iff`).
-/

namespace ConwayTx

/-! ### What certificates hold -/

@[simp] theorem Credential.toCbor_eq_iff {a b : Credential} : a.toCbor = b.toCbor ↔ a = b :=
  ⟨toCbor_inj, congrArg _⟩

theorem StakeAddress.toCbor_inj {a b : StakeAddress} (same : a.toCbor = b.toCbor) : a = b :=
  toBytes_inj (Cbor.bytes.inj same)

theorem DRep.toCbor_inj {a b : DRep} (same : a.toCbor = b.toCbor) : a = b := by
  cases a with
  | key hash =>
    cases b with
    | key hash' =>
      obtain ⟨_, parts⟩ := List.cons.inj (Cbor.array.inj same)
      exact congrArg _ (Cbor.digest_inj (List.cons.inj parts).1)
    | _ => simp [toCbor, Cbor.small] at same
  | script hash =>
    cases b with
    | script hash' =>
      obtain ⟨_, parts⟩ := List.cons.inj (Cbor.array.inj same)
      exact congrArg _ (Cbor.digest_inj (List.cons.inj parts).1)
    | _ => simp [toCbor, Cbor.small] at same
  | abstain =>
    cases b with
    | abstain => rfl
    | _ => simp [toCbor, Cbor.small] at same
  | noConfidence =>
    cases b with
    | noConfidence => rfl
    | _ => simp [toCbor, Cbor.small] at same

@[simp] theorem DRep.toCbor_eq_iff {a b : DRep} : a.toCbor = b.toCbor ↔ a = b :=
  ⟨toCbor_inj, congrArg _⟩

theorem Fraction.toCbor_inj {a b : Fraction} (same : a.toCbor = b.toCbor) : a = b := by
  obtain ⟨numer, denom, nonzero⟩ := a
  obtain ⟨numer', denom', nonzero'⟩ := b
  cases same
  rfl

theorem PoolMetadata.toCbor_inj {a b : PoolMetadata} (same : a.toCbor = b.toCbor) : a = b := by
  obtain ⟨url, hash⟩ := a
  obtain ⟨url', hash'⟩ := b
  cases same
  rfl

theorem Relay.toCbor_inj {a b : Relay} (same : a.toCbor = b.toCbor) : a = b := by
  have ports {p q : Option UInt16} (same : Cbor.option (p.map fun p => .unsigned p.toUInt64) =
      Cbor.option (q.map fun p => .unsigned p.toUInt64)) : p = q := by
    refine Cbor.option_map_inj ?_ (by simp) same
    intro m n numbers
    exact UInt16.toNat_inj.1 (congrArg UInt64.toNat (Cbor.unsigned.inj numbers))
  have addresses {n : Nat} {p q : Option (Vector UInt8 n)}
      (same : Cbor.option (p.map fun ip => .bytes ip.toList) =
        Cbor.option (q.map fun ip => .bytes ip.toList)) : p = q := by
    refine Cbor.option_map_inj ?_ (by simp) same
    intro m n contents
    exact Vector.toList_inj.1 (Cbor.bytes.inj contents)
  cases a with
  | hostAddress port ipv4 ipv6 =>
    cases b with
    | hostAddress port' ipv4' ipv6' =>
      have parts := Cbor.array.inj same
      simp only [List.cons.injEq, and_true] at parts
      obtain ⟨_, first, second, third⟩ := parts
      rw [ports first, addresses second, addresses third]
    | _ => simp [toCbor] at same
  | hostName port dnsName =>
    cases b with
    | hostName port' dnsName' =>
      have parts := Cbor.array.inj same
      simp only [List.cons.injEq, and_true] at parts
      obtain ⟨_, first, second⟩ := parts
      rw [ports first, Cbor.text.inj second]
    | _ => simp [toCbor] at same
  | multiHost dnsName =>
    cases b with
    | multiHost dnsName' =>
      cases same
      rfl
    | _ => simp [toCbor] at same

theorem PoolParams.items_inj {a b : PoolParams} (same : a.items = b.items) : a = b := by
  obtain ⟨_, _, _, _, _, _, owners, relays, metadata⟩ := a
  obtain ⟨_, _, _, _, _, _, owners', relays', metadata'⟩ := b
  simp only [items, List.cons.injEq, and_true] at same
  obtain ⟨first, second, third, fourth, fifth, sixth, seventh, eighth, last⟩ := same
  obtain rfl := Cbor.digest_inj first
  obtain rfl := Cbor.digest_inj second
  obtain rfl := Cbor.unsigned.inj third
  obtain rfl := Cbor.unsigned.inj fourth
  obtain rfl := Fraction.toCbor_inj fifth
  obtain rfl := StakeAddress.toCbor_inj sixth
  obtain rfl : owners = owners' :=
    List.map_injective_iff.2 (fun _ _ => Cbor.digest_inj) (Cbor.array.inj seventh)
  obtain rfl : relays = relays' :=
    List.map_injective_iff.2 (fun _ _ => Relay.toCbor_inj) (Cbor.array.inj eighth)
  obtain rfl : metadata = metadata' :=
    Cbor.option_map_inj (fun _ _ => PoolMetadata.toCbor_inj) (by simp [PoolMetadata.toCbor]) last
  rfl

@[simp] theorem PoolParams.items_eq_iff {a b : PoolParams} : a.items = b.items ↔ a = b :=
  ⟨items_inj, congrArg _⟩

namespace Certificate

def statesDeposit : Certificate → Bool
  | registration _ | deregistration _ => true
  | stakeRegistrationDelegation .. | voteRegistrationDelegation .. => true
  | stakeVoteRegistrationDelegation .. => true
  | _ => false

theorem items_eq_iff {deposit deposit' : Amount} {a b : Certificate} (kinds : a.kind = b.kind) :
    a.items deposit = b.items deposit' ↔
      a = b ∧ (a.statesDeposit = true → deposit = deposit') := by
  cases a with
  | stakeRegistration c =>
    cases b with
    | stakeRegistration c' => simp [items, statesDeposit]
    | _ => simp [kind] at kinds
  | stakeDeregistration c =>
    cases b with
    | stakeDeregistration c' => simp [items, statesDeposit]
    | _ => simp [kind] at kinds
  | stakeDelegation c pool =>
    cases b with
    | stakeDelegation c' pool' => simp [items, statesDeposit, ← Digest.ext_iff]
    | _ => simp [kind] at kinds
  | poolRegistration p =>
    cases b with
    | poolRegistration p' => simp [items, statesDeposit]
    | _ => simp [kind] at kinds
  | poolRetirement pool epoch =>
    cases b with
    | poolRetirement pool' epoch' => simp [items, statesDeposit, ← Digest.ext_iff]
    | _ => simp [kind] at kinds
  | registration c =>
    cases b with
    | registration c' => simp [items, statesDeposit]
    | _ => simp [kind] at kinds
  | deregistration c =>
    cases b with
    | deregistration c' => simp [items, statesDeposit]
    | _ => simp [kind] at kinds
  | voteDelegation c drep =>
    cases b with
    | voteDelegation c' drep' => simp [items, statesDeposit]
    | _ => simp [kind] at kinds
  | stakeVoteDelegation c pool drep =>
    cases b with
    | stakeVoteDelegation c' pool' drep' => simp [items, statesDeposit, ← Digest.ext_iff]
    | _ => simp [kind] at kinds
  | stakeRegistrationDelegation c pool =>
    cases b with
    | stakeRegistrationDelegation c' pool' =>
      simp [items, statesDeposit, ← Digest.ext_iff, and_assoc]
    | _ => simp [kind] at kinds
  | voteRegistrationDelegation c drep =>
    cases b with
    | voteRegistrationDelegation c' drep' => simp [items, statesDeposit, and_assoc]
    | _ => simp [kind] at kinds
  | stakeVoteRegistrationDelegation c pool drep =>
    cases b with
    | stakeVoteRegistrationDelegation c' pool' drep' =>
      simp [items, statesDeposit, ← Digest.ext_iff, and_assoc]
    | _ => simp [kind] at kinds

/-- Two certificates are written alike only where they are the same, and agree on the deposit if
they state it. -/
theorem toCbor_eq_iff {deposit deposit' : Amount} {a b : Certificate} :
    a.toCbor deposit = b.toCbor deposit' ↔
      a = b ∧ (a.statesDeposit = true → deposit = deposit') := by
  constructor
  · intro same
    obtain ⟨kinds, parts⟩ := List.cons.inj (Cbor.array.inj same)
    exact (items_eq_iff (Cbor.small_inj kinds)).1 parts
  · rintro ⟨rfl, deposits⟩
    unfold toCbor
    rw [(items_eq_iff rfl).2 ⟨rfl, deposits⟩]

end Certificate

end ConwayTx
