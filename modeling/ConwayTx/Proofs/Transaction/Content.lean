import ConwayTx.Proofs.Certificate
import ConwayTx.Proofs.Output
import ConwayTx.Proofs.SortedMap
import ConwayTx.Transaction

/-!
# What the body of a transaction identifies

The identifier of a transaction is a hash of its body's bytes. These are equal for bodies of the same
content and for no others (`encode_eq_iff_same`).
-/

namespace ConwayTx

open Outcome

theorem TxIn.toCbor_inj {a b : TxIn} (same : a.toCbor = b.toCbor) : a = b := by
  obtain ⟨ids, parts⟩ := List.cons.inj (Cbor.array.inj same)
  obtain ⟨indices, _⟩ := List.cons.inj parts
  exact TxIn.ext (Cbor.digest_inj ids) (Cbor.index_inj indices)

theorem Withdrawals.toCbor_inj {a b : Withdrawals}
    (same : Withdrawals.toCbor a = Withdrawals.toCbor b) : a = b := by
  refine SortedMap.eq_of_map_entries ?_ (Cbor.map.inj same)
  rintro ⟨address, amount⟩ ⟨address', amount'⟩ entries
  obtain ⟨addresses, amounts⟩ := Prod.mk.inj entries
  exact Prod.ext (StakeAddress.toCbor_inj addresses) (Cbor.unsigned.inj amounts)

theorem Network.number_inj {a b : Network} (same : a.number = b.number) : a = b := by
  revert same
  cases a <;> cases b <;> decide

/-- Certificates in order; what they all take for the key deposit matters if one of them states it. -/
theorem Certificate.map_toCbor_eq_iff {deposit deposit' : Amount} {xs ys : List Certificate} :
    xs.map (toCbor deposit) = ys.map (toCbor deposit') ↔
      xs = ys ∧ ((∃ c ∈ xs, c.statesDeposit = true) → deposit = deposit') := by
  induction xs generalizing ys with
  | nil => cases ys <;> simp
  | cons x xs ih =>
    cases ys with
    | nil => simp
    | cons y ys =>
      simp only [List.map_cons, List.cons.injEq, ih, toCbor_eq_iff, List.mem_cons, exists_eq_or_imp]
      rw [or_imp, and_and_and_comm]

namespace TxBody

/-- The same content. The deposit that registrations state counts where one of them does, and of
outputs and mints only what they are worth. Fractions are compared as they are written. -/
@[mk_iff] structure Same (a b : TxBody) : Prop where
  inputs : a.inputs = b.inputs
  outputs : List.Forall₂ TxOutput.Same a.outputs b.outputs
  fee : a.fee = b.fee
  ttl : a.ttl = b.ttl
  certificates : a.certificates = b.certificates
  keyDeposit : (∃ c ∈ a.certificates, c.statesDeposit = true) → a.keyDeposit = b.keyDeposit
  withdrawals : a.withdrawals = b.withdrawals
  metadataHash : a.metadataHash = b.metadataHash
  validityStart : a.validityStart = b.validityStart
  mint : Option.Rel (fun m m' => ∀ p n, m.quantity p n = m'.quantity p n) a.mint b.mint
  scriptDataHash : a.scriptDataHash = b.scriptDataHash
  collateral : a.collateral = b.collateral
  requiredSigners : a.requiredSigners = b.requiredSigners
  network : a.network = b.network
  collateralReturn : Option.Rel TxOutput.Same a.collateralReturn b.collateralReturn
  totalCollateral : a.totalCollateral = b.totalCollateral
  referenceInputs : a.referenceInputs = b.referenceInputs

/-! ### Fields -/

def signersToCbor (signers : SortedSet KeyHash) : Cbor :=
  .array (signers.keys.map fun key => .bytes key.bytes)

def fields (b : TxBody) (outputs : List Cbor) (mint collateralReturn : Option Cbor) :
    List (UInt8 × Option Cbor) := [
  (0, some (refsToCbor b.inputs)),
  (1, some (.array outputs)),
  (2, some (.unsigned b.fee)),
  (3, b.ttl.map .unsigned),
  (4, if b.certificates.isEmpty then none
      else some (.array (b.certificates.map (Certificate.toCbor b.keyDeposit)))),
  (5, unlessEmpty b.withdrawals b.withdrawals.toCbor),
  (7, b.metadataHash.map fun hash => .bytes hash.bytes),
  (8, b.validityStart.map .unsigned),
  (9, mint),
  (11, b.scriptDataHash.map fun hash => .bytes hash.bytes),
  (13, unlessEmpty b.collateral (refsToCbor b.collateral)),
  (14, unlessEmpty b.requiredSigners (signersToCbor b.requiredSigners)),
  (15, b.network.map fun network => .small network.number),
  (16, collateralReturn),
  (17, b.totalCollateral.map .unsigned),
  (18, unlessEmpty b.referenceInputs (refsToCbor b.referenceInputs))]

theorem toCbor_ok {b : TxBody} {c : Cbor} (h : b.toCbor = .ok c) :
    ∃ outputs mint collateralReturn, b.outputs.mapM TxOutput.toCbor = .ok outputs ∧
      b.mint.mapM MultiAsset.mintToCbor = .ok mint ∧
      b.collateralReturn.mapM TxOutput.toCbor = .ok collateralReturn ∧
      c = .fields (b.fields outputs mint collateralReturn) := by
  obtain ⟨outputs, outputsOk, h⟩ := bind_ok h
  obtain ⟨mint, mintOk, h⟩ := bind_ok h
  obtain ⟨collateralReturn, returnOk, h⟩ := bind_ok h
  exact ⟨outputs, mint, collateralReturn, outputsOk, mintOk, returnOk, (pure_ok h).symm⟩

theorem refsToCbor_inj {s t : SortedSet TxIn} (same : refsToCbor s = refsToCbor t) : s = t := by
  refine SortedMap.eq_of_map_keys ?_ (Cbor.array.inj same)
  intro a b
  exact TxIn.toCbor_inj

theorem unlessEmpty_eq_iff {κ α : Type} [Ord κ] {m n : SortedMap κ α} {f : SortedMap κ α → Cbor}
    (inj : f m = f n → m = n) : unlessEmpty m (f m) = unlessEmpty n (f n) ↔ m = n := by
  refine ⟨?_, fun same => by rw [same]⟩
  intro same
  unfold unlessEmpty at same
  split_ifs at same with empty empty'
  · apply SortedMap.ext
    rw [List.isEmpty_iff.1 empty, List.isEmpty_iff.1 empty']
  · exact inj (Option.some.inj same)

theorem certificates_eq_iff {deposit deposit' : Amount} {xs ys : List Certificate} :
    ((if xs.isEmpty then none else some (Cbor.array (xs.map (Certificate.toCbor deposit)))) =
        if ys.isEmpty then none else some (Cbor.array (ys.map (Certificate.toCbor deposit')))) ↔
      xs = ys ∧ ((∃ c ∈ xs, c.statesDeposit = true) → deposit = deposit') := by
  rw [← Certificate.map_toCbor_eq_iff]
  cases xs with
  | nil => cases ys <;> simp
  | cons x xs => cases ys <;> simp

theorem unsigned_eq_iff {x y : Option UInt64} :
    x.map Cbor.unsigned = y.map Cbor.unsigned ↔ x = y :=
  Cbor.field_eq_iff fun _ _ _ _ => Cbor.unsigned.inj

theorem hash_eq_iff {size : Nat} {x y : Option (Digest size)} :
    x.map (fun hash => Cbor.bytes hash.bytes) = y.map (fun hash => Cbor.bytes hash.bytes) ↔ x = y :=
  Cbor.field_eq_iff fun _ _ _ _ => Cbor.digest_inj

theorem network_eq_iff {x y : Option Network} :
    x.map (fun network => Cbor.small network.number) =
      y.map (fun network => Cbor.small network.number) ↔ x = y :=
  Cbor.field_eq_iff fun _ _ _ _ same => Network.number_inj (Cbor.small_inj same)

theorem signersToCbor_inj {s t : SortedSet KeyHash} (same : signersToCbor s = signersToCbor t) :
    s = t := by
  refine SortedMap.eq_of_map_keys ?_ (Cbor.array.inj same)
  intro a b
  exact Cbor.digest_inj

theorem toCbor_eq_iff {a b : TxBody} {c d : Cbor} (short : c.length < UInt64.size)
    (left : a.toCbor = .ok c) (right : b.toCbor = .ok d) : c = d ↔ a.Same b := by
  obtain ⟨outputs, mint, returned, outputsOk, mintOk, returnOk, rfl⟩ := toCbor_ok left
  obtain ⟨outputs', mint', returned', outputsOk', mintOk', returnOk', rfl⟩ := toCbor_ok right
  have outputs_iff : outputs = outputs' ↔ List.Forall₂ TxOutput.Same a.outputs b.outputs := by
    refine mapM_eq_iff outputsOk outputsOk' ?_
    intro o _ o' _ item listed item' one one'
    have within := Cbor.length_le_of_mem_array listed
    have field : (1, some (.array outputs)) ∈ a.fields outputs mint returned := by simp [fields]
    have fits := Cbor.length_le_of_mem_fields 1 field
    exact TxOutput.toCbor_eq_iff (by omega) one one'
  have mint_iff : mint = mint' ↔
      Option.Rel (fun m m' => ∀ p n, m.quantity p n = m'.quantity p n) a.mint b.mint := by
    refine option_mapM_eq_iff mintOk mintOk' ?_
    intro m m' item _ item' one one'
    exact MultiAsset.mintToCbor_eq_iff one one'
  have return_iff : returned = returned' ↔
      Option.Rel TxOutput.Same a.collateralReturn b.collateralReturn := by
    refine option_mapM_eq_iff returnOk returnOk' ?_
    intro o o' item given item' one one'
    have field : (16, some item) ∈ a.fields outputs mint returned := by
      simp [fields, Option.mem_def.1 given]
    have fits := Cbor.length_le_of_mem_fields 16 field
    exact TxOutput.toCbor_eq_iff (by omega) one one'
  have inputs_iff : refsToCbor a.inputs = refsToCbor b.inputs ↔ a.inputs = b.inputs :=
    ⟨refsToCbor_inj, congrArg _⟩
  have keys : (a.fields outputs mint returned).map Prod.fst =
      (b.fields outputs' mint' returned').map Prod.fst := rfl
  rw [Cbor.fields_eq_iff _ _ keys (by simp [fields]), same_iff]
  simp only [fields, and_assoc, List.cons.injEq, Prod.mk.injEq, Option.some.injEq, Cbor.array.injEq,
    Cbor.unsigned.injEq, true_and, and_true, inputs_iff, outputs_iff, unsigned_eq_iff,
    certificates_eq_iff, unlessEmpty_eq_iff Withdrawals.toCbor_inj, hash_eq_iff, mint_iff,
    unlessEmpty_eq_iff refsToCbor_inj, unlessEmpty_eq_iff signersToCbor_inj, network_eq_iff,
    return_iff]

/-- Bodies have the same bytes, and so the same identifier, just where their content is the same.
Headers state lengths in a word. -/
theorem encode_eq_iff_same {a b : TxBody} {x y : Bytes} (left : a.encode = .ok x)
    (right : b.encode = .ok y) (short : x.length < UInt64.size) : x = y ↔ a.Same b := by
  obtain ⟨c, item, written⟩ := bind_ok left
  obtain ⟨d, item', written'⟩ := bind_ok right
  obtain rfl := pure_ok written
  obtain rfl := pure_ok written'
  rw [← toCbor_eq_iff short item item']
  exact ⟨Cbor.encode_inj short, congrArg _⟩

theorem encode_eq_iff_same_zero_quantity :
    let address : Address := .enterprise .testnet (.key .zero)
    let nothing : MultiAsset := MultiAsset.bump ∅ .zero ⟨[], by decide⟩ 0
    let a : TxBody := {
      outputs := [{ address, value := .ofCoin 5 }], mint := some ∅,
      certificates := [.stakeRegistration (.key .zero)] }
    let b : TxBody := {
      outputs := [{ address, value := ⟨5, some nothing⟩ }], mint := some nothing,
      certificates := [.stakeRegistration (.key .zero)], keyDeposit := 7 }
    ∃ x, x.length < UInt64.size ∧ a.encode = .ok x ∧ b.encode = .ok x := by
  intro address nothing a b
  have zero (p : PolicyId) (n : AssetName) : nothing.quantity p n = 0 := by
    rw [MultiAsset.quantity_bump]
    simp
  have same : a.Same b := by
    refine ⟨rfl, ?_, rfl, rfl, rfl, ?_, rfl, rfl, rfl, .some ?_, rfl, rfl, rfl, rfl, .none, rfl, rfl⟩
    · refine .cons ⟨rfl, rfl, fun p n => ?_, rfl, rfl⟩ .nil
      exact congrArg (max 0) (zero p n).symm
    · rintro ⟨c, mem, states⟩
      obtain rfl := List.mem_singleton.1 mem
      cases states
    · intro p n
      exact (zero p n).symm
  obtain ⟨x, left⟩ := ok_of_isSome (show a.encode.toOption.isSome = true by decide +kernel)
  obtain ⟨y, right⟩ := ok_of_isSome (show b.encode.toOption.isSome = true by decide +kernel)
  have short : a.encode.toOption.all (·.length < UInt64.size) = true := by decide +kernel
  rw [left] at short
  have fits : x.length < UInt64.size := of_decide_eq_true short
  have equal : x = y := (encode_eq_iff_same left right fits).2 same
  exact ⟨x, fits, left, equal ▸ right⟩

end TxBody

end ConwayTx
