import ConwayTx.Proofs.Cbor.Skipping
import ConwayTx.Proofs.Draft
import ConwayTx.Proofs.Redeemer.Designation

/-!
# Deposits on the wire

The number in front of an encoded certificate says whether it locks or releases a deposit, and whether
the deposit stands at its end (`lastWord?_toCbor`). What certificates are reckoned with is what their
bytes say (`deposits_written`).
-/

namespace ConwayTx

/-! ### Lengths -/

theorem Credential.length_toCbor (c : Credential) : c.toCbor.length = 32 := by
  rw [toCbor, Cbor.length_array, List.map_cons, List.map_cons, List.map_nil, Cbor.length_digest]
  cases c <;> rfl

theorem DRep.length_toCbor_le (d : DRep) : d.toCbor.length ≤ 32 := by
  cases d with
  | key hash | script hash =>
    rw [toCbor, Cbor.length_array, List.map_cons, List.map_cons, List.map_nil, Cbor.length_digest]
    exact Nat.le_refl 32
  | abstain | noConfidence => decide

namespace Certificate

/-! ### Kinds -/

theorem length_items_le (c : Certificate) (keyDeposit : Amount) : (c.items keyDeposit).length ≤ 9 := by
  cases c <;> simp [items, PoolParams.items]

theorem firstWord?_toCbor (c : Certificate) (keyDeposit : Amount) :
    Cbor.firstWord? (c.toCbor keyDeposit).encode = some c.kind.toNat := by
  have few : (c.items keyDeposit).length + 1 < UInt64.size :=
    (Nat.succ_le_succ (c.length_items_le keyDeposit)).trans_lt (by decide)
  exact (Cbor.firstWord?_encode few).trans (by simp)

/-- A certificate that states the deposit ends with it. -/
theorem items_of_statesDeposit {c : Certificate} (states : c.statesDeposit = true)
    (keyDeposit : Amount) :
    ∃ front, c.items keyDeposit = front ++ [.unsigned keyDeposit] ∧
      (front.map Cbor.length).sum ≤ 94 := by
  have keyHash (pool : PoolId) : (Cbor.bytes pool.bytes).length = 30 := Cbor.length_digest pool
  cases c with
  | registration c | deregistration c =>
    refine ⟨[c.toCbor], rfl, ?_⟩
    simp [c.length_toCbor]
  | stakeRegistrationDelegation c pool =>
    refine ⟨[c.toCbor, .bytes pool.bytes], rfl, ?_⟩
    simp [c.length_toCbor, keyHash]
  | voteRegistrationDelegation c drep =>
    refine ⟨[c.toCbor, drep.toCbor], rfl, ?_⟩
    have := drep.length_toCbor_le
    simp only [List.map_cons, List.map_nil, List.sum_cons, List.sum_nil, c.length_toCbor]
    omega
  | stakeVoteRegistrationDelegation c pool drep =>
    refine ⟨[c.toCbor, .bytes pool.bytes, drep.toCbor], rfl, ?_⟩
    have := drep.length_toCbor_le
    simp only [List.map_cons, List.map_nil, List.sum_cons, List.sum_nil, c.length_toCbor, keyHash]
    omega
  | _ => cases states

theorem lastWord?_toCbor {c : Certificate} (states : c.statesDeposit = true) (keyDeposit : Amount) :
    Cbor.lastWord? (c.toCbor keyDeposit).encode = some keyDeposit.toNat := by
  obtain ⟨front, items, few⟩ := items_of_statesDeposit states keyDeposit
  have whole : c.toCbor keyDeposit = .array ((.small c.kind :: front) ++ [.unsigned keyDeposit]) := by
    rw [toCbor, items, List.cons_append]
  rw [whole]
  refine Cbor.lastWord?_encode ?_
  have count := Cbor.headLength_le ((Cbor.small c.kind :: front) ++ [Cbor.unsigned keyDeposit]).length
  have kind := Cbor.headLength_le c.kind.toUInt64.toNat
  have amount := Cbor.headLength_le keyDeposit.toNat
  have size : 9 + (9 + 94 + 9) < UInt64.size := by decide
  rw [Cbor.length_array, List.map_append, List.sum_append, List.map_cons, List.sum_cons,
    List.map_singleton, List.sum_singleton, Cbor.length_unsigned, Cbor.small, Cbor.length_unsigned]
  rw [Cbor.small] at count
  omega

/-! ### What the kinds move -/

/-- What an encoded certificate locks: registrations state it, except for the oldest kind and for
pools. -/
def lockedBy? (params : ProtocolParams) (s : Bytes) : Option ℕ := do
  let kind ← Cbor.firstWord? s
  if kind ∈ [7, 11, 12, 13] then Cbor.lastWord? s
  else if kind = 0 then some params.keyDeposit.toNat
  else if kind = 3 then some params.poolDeposit.toNat
  else some 0

/-- What an encoded certificate releases: deregistrations state it, except for the oldest kind. -/
def releasedBy? (params : ProtocolParams) (s : Bytes) : Option ℕ := do
  let kind ← Cbor.firstWord? s
  if kind = 8 then Cbor.lastWord? s
  else if kind = 1 then some params.keyDeposit.toNat
  else some 0

theorem lockedBy?_toCbor (params : ProtocolParams) (c : Certificate) :
    lockedBy? params (c.toCbor params.keyDeposit).encode = some (c.deposit params).toNat := by
  have kind := c.firstWord?_toCbor params.keyDeposit
  cases c with
  | registration | stakeRegistrationDelegation | voteRegistrationDelegation
  | stakeVoteRegistrationDelegation =>
    rw [lockedBy?, kind]
    exact lastWord?_toCbor rfl params.keyDeposit
  | _ =>
    rw [lockedBy?, kind]
    rfl

theorem releasedBy?_toCbor (params : ProtocolParams) (c : Certificate) :
    releasedBy? params (c.toCbor params.keyDeposit).encode = some (c.refund params).toNat := by
  have kind := c.firstWord?_toCbor params.keyDeposit
  cases c with
  | deregistration =>
    rw [releasedBy?, kind]
    exact lastWord?_toCbor rfl params.keyDeposit
  | _ =>
    rw [releasedBy?, kind]
    rfl

/-- Certificates of other kinds are written alike whatever the deposit is. -/
theorem toCbor_eq_of_kind {c : Certificate} (other : c.kind.toNat ∉ [7, 8, 11, 12, 13])
    (deposit deposit' : Amount) : c.toCbor deposit = c.toCbor deposit' := by
  refine toCbor_eq_iff.2 ⟨rfl, fun states => ?_⟩
  cases c with
  | registration | deregistration | stakeRegistrationDelegation | voteRegistrationDelegation
  | stakeVoteRegistrationDelegation => exact absurd (by simp [kind]) other
  | _ => cases states

/-- Whatever is read off each certificate adds up over a list of them. -/
theorem exists_read {read : Bytes → Option ℕ} {amount : Certificate → Amount} {deposit : Amount}
    (reads : ∀ c : Certificate, read (c.toCbor deposit).encode = some (amount c).toNat)
    (certificates : List Certificate) :
    ∃ amounts, (certificates.map fun c => (c.toCbor deposit).encode).mapM read = some amounts ∧
      amounts.sum = Amount.total (certificates.map amount) := by
  induction certificates with
  | nil => exact ⟨[], rfl, rfl⟩
  | cons c rest ih =>
    obtain ⟨amounts, others, sum⟩ := ih
    refine ⟨(amount c).toNat :: amounts, ?_, ?_⟩
    · rw [List.map_cons, List.mapM_cons, reads, others]
      rfl
    · rw [List.sum_cons, sum, List.map_cons, Amount.total]

end Certificate

/-! ### Bodies -/

def Cbor.elements : Cbor → List Cbor
  | array items => items
  | _ => []

namespace TxBody

def writtenCertificates (b : TxBody) : List Bytes :=
  b.certificates.map fun c => (c.toCbor b.keyDeposit).encode

/-- These are the certificates of the encoded body. -/
theorem elements_certificates {b : TxBody} {item : Cbor} (h : b.toCbor = .ok item) :
    ((item.field? 4).elim [] Cbor.elements).map Cbor.encode = b.writtenCertificates := by
  obtain ⟨outputs, mint, returned, _, _, _, rfl⟩ := toCbor_ok h
  cases empty : b.certificates.isEmpty with
  | true =>
    have listed : (4, none) ∈ b.fields outputs mint returned := by simp [fields, empty]
    rw [Cbor.field?_fields_none (b.nodup_fields _ _ _) listed, writtenCertificates,
      List.isEmpty_iff.1 empty]
    rfl
  | false =>
    have listed : (4, some (.array (b.certificates.map (Certificate.toCbor b.keyDeposit)))) ∈
        b.fields outputs mint returned := by simp [fields, empty]
    rw [Cbor.field?_fields (b.nodup_fields _ _ _) listed]
    exact List.map_map

end TxBody

/-- The deposits that balance a draft are those that its encoded certificates state, and the ledger's
own where a certificate of the oldest kinds or a pool states none. No other certificate moves a
deposit or states one. -/
theorem Draft.deposits_written {d : Draft} {params : ProtocolParams}
    (agree : d.body.keyDeposit = params.keyDeposit) :
    ∃ locked released,
      d.body.writtenCertificates.mapM (Certificate.lockedBy? params) = some locked ∧
      d.body.writtenCertificates.mapM (Certificate.releasedBy? params) = some released ∧
      Certificate.totalDeposit? params d.body.certificates = Amount.ofNat? locked.sum ∧
      Certificate.totalRefund? params d.body.certificates = Amount.ofNat? released.sum ∧
      (∀ demand, d.baseDemand params = .ok demand →
        demand.coin.toNat = locked.sum + (TxOutput.paid d.body.outputs).1) ∧
      (∀ supply, d.extraSupply params = .ok supply →
        supply.coin.toNat = Amount.total d.body.withdrawals.values + released.sum) ∧
      (∀ c ∈ d.body.certificates, ∀ kind,
        Cbor.firstWord? (c.toCbor d.body.keyDeposit).encode = some kind →
        kind ∉ [7, 8, 11, 12, 13] → ∀ deposit, c.toCbor deposit = c.toCbor d.body.keyDeposit) ∧
      ∀ item, d.body.toCbor = .ok item →
        ((item.field? 4).elim [] Cbor.elements).map Cbor.encode = d.body.writtenCertificates := by
  obtain ⟨locked, reads, sum⟩ :=
    Certificate.exists_read (Certificate.lockedBy?_toCbor params) d.body.certificates
  obtain ⟨released, reads', sum'⟩ :=
    Certificate.exists_read (Certificate.releasedBy?_toCbor params) d.body.certificates
  rw [← agree] at reads reads'
  refine ⟨locked, released, reads, reads', ?_, ?_, fun demand ok => ?_, fun supply ok => ?_, ?_,
    fun item => TxBody.elements_certificates⟩
  · rw [sum]
    rfl
  · rw [sum']
    rfl
  · have coin := congrArg Prod.fst (Draft.funds_of_baseDemand ok)
    rw [sum]
    refine coin.trans ?_
    show 0 + _ + _ = _
    rw [Nat.zero_add]
    rfl
  · have coin := congrArg Prod.fst (Draft.funds_of_extraSupply ok)
    rw [sum']
    refine coin.trans ?_
    show 0 + _ + _ = _
    rw [Nat.zero_add]
    rfl
  · intro c _ kind front other deposit
    rw [Certificate.firstWord?_toCbor] at front
    cases front
    exact Certificate.toCbor_eq_of_kind other deposit _

/-- Registrations and deregistrations that state the deposit, beside those that do not. -/
theorem Draft.deposits_written_both_ways :
    let pool : PoolParams := {
      operator := .zero, vrfKeyHash := .zero, pledge := 10, cost := 20, margin := ⟨1, 2, by decide⟩,
      rewardAccount := ⟨.testnet, .key .zero⟩, owners := [.zero], relays := [.multiHost "a.b"],
      metadata := none }
    let d : Draft := { body := {
      certificates := [.stakeRegistration (.key .zero), .poolRegistration pool,
        .stakeVoteRegistrationDelegation (.script .zero) .zero .abstain, .deregistration (.key .zero),
        .stakeDeregistration (.script .zero), .poolRetirement .zero 300]
      keyDeposit := 2000000 } }
    let params : ProtocolParams := {}
    d.body.keyDeposit = params.keyDeposit ∧
      d.body.writtenCertificates.mapM (Certificate.lockedBy? params) =
        some [2000000, 500000000, 2000000, 0, 0, 0] ∧
      Certificate.totalDeposit? params d.body.certificates = some 504000000 ∧
      d.body.writtenCertificates.mapM (Certificate.releasedBy? params) =
        some [0, 0, 0, 2000000, 2000000, 0] ∧
      Certificate.totalRefund? params d.body.certificates = some 4000000 := by
  intro pool d params
  have agree : d.body.keyDeposit = params.keyDeposit := rfl
  obtain ⟨locked, released, reads, reads', total, total', _⟩ := Draft.deposits_written agree
  have stated : d.body.writtenCertificates.mapM (Certificate.lockedBy? params) =
      some [2000000, 500000000, 2000000, 0, 0, 0] := by decide +kernel
  have stated' : d.body.writtenCertificates.mapM (Certificate.releasedBy? params) =
      some [0, 0, 0, 2000000, 2000000, 0] := by decide +kernel
  obtain rfl := Option.some.inj (reads.symm.trans stated)
  obtain rfl := Option.some.inj (reads'.symm.trans stated')
  exact ⟨agree, stated, total, stated', total'⟩

end ConwayTx
