import ConwayTx.Proofs.Address.Varint
import ConwayTx.Proofs.Cbor.Parts

/-!
# Addresses read back

Each number of a pointer is read up to its last digit, the header tells which credentials follow,
and so the bytes of an address are of no other address (`toBytes_inj`).
-/

namespace ConwayTx

theorem ChainPointer.ofBytes?_toBytes (p : ChainPointer) : ofBytes? p.toBytes = some p := by
  unfold ofBytes? toBytes
  rw [List.append_assoc, Varint.decode?_encode]
  show (Varint.decode? _ >>= _) = _
  rw [Varint.decode?_encode]
  show (Varint.decode? _ >>= _) = _
  rw [← List.append_nil (Varint.encode p.certIndex), Varint.decode?_encode]
  rfl

/-! ### Addresses -/

theorem Digest.ofBytes?_bytes {size : Nat} (d : Digest size) : ofBytes? d.bytes = some d := by
  unfold ofBytes?
  rw [dif_pos d.length_eq]

theorem Network.ofNumber_number (network : Network) : ofNumber network.number = network := by
  cases network <;> rfl

theorem Credential.ofKind_kind (c : Credential) : ofKind c.kind c.hash = c := by
  cases c <;> rfl

theorem Credential.toCbor_inj {a b : Credential} (same : a.toCbor = b.toCbor) : a = b := by
  obtain ⟨kinds, others⟩ := List.cons.inj (Cbor.array.inj same)
  obtain ⟨hashes, _⟩ := List.cons.inj others
  rw [← a.ofKind_kind, Cbor.small_inj kinds, Cbor.digest_inj hashes, b.ofKind_kind]

namespace Address

theorem zero_or_one {kind : UInt8} (two : kind < 2) : kind = 0 ∨ kind = 1 := by
  rw [UInt8.lt_iff_toNat_lt] at two
  simp only [← UInt8.toNat_inj, UInt8.reduceToNat] at two ⊢
  omega

theorem stakeHeader_parts (network : Network) {kind : UInt8} (two : kind < 2) :
    let header := (0xe0 : UInt8) ||| (kind <<< 4) ||| network.number
    (header >>> 4 = 14 ∨ header >>> 4 = 15) ∧ header &&& 0x0f = network.number ∧
      header >>> 4 &&& 1 = kind := by
  cases network <;> rcases zero_or_one two with rfl | rfl <;> decide

/-- The parts of the header of a payment address. -/
theorem header_parts (network : Network) {kind bits : UInt8} (two : kind < 2) (four : bits < 4) :
    let header := network.number ||| (kind <<< 4) ||| (bits <<< 5)
    header &&& 0x0f = network.number ∧ header >>> 4 ≤ 7 ∧
      header >>> 4 &&& 1 = kind ∧ header >>> 4 >>> 1 = bits := by
  have kinds := zero_or_one two
  have delegations : bits = 0 ∨ bits = 1 ∨ bits = 2 ∨ bits = 3 := by
    rw [UInt8.lt_iff_toNat_lt] at four
    simp only [← UInt8.toNat_inj, UInt8.reduceToNat] at four ⊢
    omega
  cases network <;> rcases kinds with rfl | rfl <;>
    rcases delegations with rfl | rfl | rfl | rfl <;> decide

theorem delegationOf_toBytes (d : Delegation) {kind : UInt8} (bits : kind >>> 1 = d.toBytes.1)
    (length : Nat) : delegationOf kind length d.toBytes.2 = .ok d := by
  unfold delegationOf
  rw [bits]
  cases d with
  | none => rfl
  | credential stake =>
    have known : Digest.ofBytes? stake.hash.bytes = some stake.hash := stake.hash.ofBytes?_bytes
    cases stake with
    | key hash | script hash =>
      simp only [Delegation.toBytes, Credential.kind, known]
      rfl
  | pointer position =>
    simp only [Delegation.toBytes, ChainPointer.ofBytes?_toBytes]

theorem kind_lt (c : Credential) : c.kind < 2 := by
  cases c with
  | key hash | script hash =>
    rw [Credential.kind]
    decide

theorem bits_lt (d : Delegation) : d.toBytes.1 < 4 := by
  cases d with
  | none => decide
  | pointer position => exact (by decide : (2 : UInt8) < 4)
  | credential stake => exact UInt8.lt_trans (kind_lt stake) (by decide)

theorem ofBytes_stake {header : UInt8} {content : Bytes} {hash : Digest 28}
    (kind : header >>> 4 = 14 ∨ header >>> 4 = 15) (read : Digest.ofBytes? content = some hash) :
    ofBytes (header :: content) = .ok (.stake ⟨Network.ofNumber (header &&& 0x0f),
      Credential.ofKind (header >>> 4 &&& 1) hash⟩) := by
  simp only [ofBytes, if_pos kind, read]

theorem ofBytes_payment {header : UInt8} {content : Bytes} {hash : Digest 28} {d : Delegation}
    (small : header >>> 4 ≤ 7) (read : Digest.ofBytes? (content.take 28) = some hash)
    (delegation : delegationOf (header >>> 4) (header :: content).length (content.drop 28) = .ok d) :
    ofBytes (header :: content) = .ok (.payment (Network.ofNumber (header &&& 0x0f))
      (Credential.ofKind (header >>> 4 &&& 1) hash) d) := by
  have other : ¬ (header >>> 4 = 14 ∨ header >>> 4 = 15) := by
    rintro (high | high) <;> rw [high] at small <;> exact absurd small (by decide)
  simp only [ofBytes, if_neg other, if_pos small, read, delegation]
  rfl

theorem ofBytes_toBytes (a : Address) : ofBytes a.toBytes = .ok a := by
  cases a with
  | stake address =>
    obtain ⟨kind, networks, kinds⟩ :=
      stakeHeader_parts address.network (kind_lt address.credential)
    refine (ofBytes_stake kind address.credential.hash.ofBytes?_bytes).trans ?_
    rw [networks, Network.ofNumber_number, kinds, Credential.ofKind_kind]
  | payment network credential delegation =>
    obtain ⟨networks, small, kinds, delegations⟩ :=
      header_parts network (kind_lt credential) (bits_lt delegation)
    have front : (credential.hash.bytes ++ delegation.toBytes.2).take 28 = credential.hash.bytes :=
      List.take_left' credential.hash.length_eq
    have back : (credential.hash.bytes ++ delegation.toBytes.2).drop 28 = delegation.toBytes.2 :=
      List.drop_left' credential.hash.length_eq
    have read := credential.hash.ofBytes?_bytes
    rw [← front] at read
    have tail := delegationOf_toBytes delegation delegations
    rw [← back] at tail
    refine (ofBytes_payment small read (tail _)).trans ?_
    rw [networks, Network.ofNumber_number, kinds, Credential.ofKind_kind]

theorem toBytes_inj {a b : Address} (same : a.toBytes = b.toBytes) : a = b := by
  have read := congrArg ofBytes same
  rw [ofBytes_toBytes, ofBytes_toBytes] at read
  exact Except.ok.inj read

theorem toCbor_inj {a b : Address} (same : a.toCbor = b.toCbor) : a = b :=
  toBytes_inj (Cbor.bytes.inj same)

end Address

end ConwayTx
