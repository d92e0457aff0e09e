import ConwayTx.Proofs.Output.Minimum
import ConwayTx.Proofs.Transaction
import ConwayTx.Proofs.Transaction.Content

/-!
# What outputs and the fee weigh

With other outputs and another fee, a transaction's size differs by the bytes of these alone
(`exists_weighs`). An output with nothing but lovelace takes few bytes besides its address
(`length_toCbor_adaOnly`), and the longest addresses are those with a pointer.
-/

namespace ConwayTx

open Outcome

/-! ### Addresses -/

namespace Varint

theorem length_leading_le {n k : Nat} (small : n < 128 ^ k) : (leading n).length ≤ k := by
  induction k generalizing n with
  | zero =>
    obtain rfl : n = 0 := by omega
    simp [leading]
  | succ k ih =>
    rw [leading]
    split
    · exact Nat.zero_le _
    · have rest := ih (Nat.div_lt_of_lt_mul (by rwa [Nat.pow_succ'] at small))
      rw [List.length_append, List.length_singleton]
      omega

theorem length_encode_le (n : UInt64) : (encode n).length ≤ 10 := by
  have word := n.toNat_lt_size
  have size : UInt64.size = 2 ^ 64 := rfl
  have rest := length_leading_le (n := n.toNat / 128) (k := 9) (by omega)
  rw [encode, List.length_append, List.length_singleton]
  omega

end Varint

theorem Delegation.length_toBytes_le (d : Delegation) : d.toBytes.2.length ≤ 30 := by
  cases d with
  | none => exact Nat.zero_le _
  | credential stake =>
    show stake.hash.bytes.length ≤ 30
    rw [stake.hash.length_eq]
    decide
  | pointer position =>
    have slot := Varint.length_encode_le position.slot
    have tx := Varint.length_encode_le position.txIndex
    have cert := Varint.length_encode_le position.certIndex
    show (position.toBytes).length ≤ 30
    rw [ChainPointer.toBytes, List.length_append, List.length_append]
    omega

theorem Address.length_toBytes_le (a : Address) : a.toBytes.length ≤ 59 := by
  cases a with
  | payment network credential delegation =>
    have tail := delegation.length_toBytes_le
    show (_ :: (credential.hash.bytes ++ delegation.toBytes.2)).length ≤ 59
    rw [List.length_cons, List.length_append, credential.hash.length_eq]
    omega
  | stake address =>
    show (_ :: address.credential.hash.bytes).length ≤ 59
    rw [List.length_cons, address.credential.hash.length_eq]
    decide

theorem Address.length_toCbor_le (a : Address) : a.toCbor.length ≤ 68 := by
  have content := a.length_toBytes_le
  have head := Cbor.headLength_le a.toBytes.length
  rw [toCbor, Cbor.length, Cbor.encode, Cbor.byteString, List.length_append, Cbor.length_head]
  omega

/-! ### Outputs -/

/-- An output with lovelace alone is its address, its coin, and three bytes. -/
theorem TxOutput.length_toCbor_adaOnly {o : TxOutput} (adaOnly : o.value.hasAssets = false)
    (datum : o.datum = none) (script : o.script = none) :
    ∃ item, o.toCbor = .ok item ∧
      item.length = o.address.toCbor.length + 3 + Cbor.headLength o.coin.toNat := by
  have value : o.value.toCbor = .ok (.unsigned o.coin) := by
    rw [Value.toCbor, adaOnly]
    rfl
  refine ⟨.fields [(0, some o.address.toCbor), (1, some (.unsigned o.coin)), (2, none), (3, none)],
    ?_, ?_⟩
  · rw [toCbor, value, datum, script]
    rfl
  · rw [Cbor.length_fields]
    simp only [List.map_cons, List.map_nil, List.sum_cons, List.sum_nil, Cbor.fieldLength,
      Cbor.length_unsigned]
    show 1 + (1 + o.address.toCbor.length + (1 + Cbor.headLength o.coin.toNat + (0 + (0 + 0)))) = _
    omega

/-! ### Bodies -/

/-- Values in the second and the third field. -/
theorem Cbor.exists_length_fields (first : UInt8 × Option Cbor) (key key' : UInt8)
    (after : List (UInt8 × Option Cbor)) :
    ∃ rest, ∀ c d, (fields (first :: (key, some c) :: (key', some d) :: after)).length =
      rest + c.length + d.length := by
  refine ⟨headLength ((first.2.isSome :: true :: true :: after.map (·.2.isSome)).count true) +
    fieldLength first + (small key).length + (small key').length + (after.map fieldLength).sum,
    fun c d => ?_⟩
  simp only [length_fields, List.map_cons, List.sum_cons, fieldLength, Option.isSome_some]
  omega

namespace Transaction

/-- With other outputs and another fee. -/
def paying (t : Transaction) (outputs : List TxOutput) (fee : Amount) : Transaction :=
  { t with body := { t.body with outputs, fee } }

/-- The bytes besides outputs and fee. -/
def Weighs (t : Transaction) (rest : Nat) : Prop :=
  ∀ outputs items fee, outputs.mapM TxOutput.toCbor = .ok items →
    (t.paying outputs fee).size = .ok (rest + (Cbor.array items).length + Cbor.headLength fee.toNat)

theorem exists_weighs {t : Transaction} {size : Nat} (h : t.size = .ok size) :
    ∃ rest, t.Weighs rest := by
  obtain ⟨body, metadata, bodyOk, metadataOk, _⟩ := size_ok h
  obtain ⟨_, mint, collateralReturn, _, mintOk, returnOk, _⟩ := TxBody.toCbor_ok bodyOk
  obtain ⟨rest, lengths⟩ := Cbor.exists_length_fields (0, some (TxBody.refsToCbor t.body.inputs)) 1 2
    ((t.body.fields [] mint collateralReturn).drop 3)
  refine ⟨Cbor.headLength 4 + rest + t.witnesses.toCbor.length + (Cbor.bool t.isValid).length +
    (Cbor.option metadata).length, fun outputs items fee written => ?_⟩
  have bodyOk' : (t.paying outputs fee).body.toCbor =
      .ok (.fields ((t.paying outputs fee).body.fields items mint collateralReturn)) := by
    show (outputs.mapM TxOutput.toCbor >>= _) = _
    rw [written]
    show (t.body.mint.mapM MultiAsset.mintToCbor >>= _) = _
    rw [mintOk]
    show (t.body.collateralReturn.mapM TxOutput.toCbor >>= _) = _
    rw [returnOk]
    rfl
  have length : (Cbor.fields ((t.paying outputs fee).body.fields items mint collateralReturn)).length =
      rest + (Cbor.array items).length + Cbor.headLength fee.toNat := by
    rw [← Cbor.length_unsigned]
    exact lengths (.array items) (.unsigned fee)
  have metadataOk' : (t.paying outputs fee).metadata.mapM Metadata.toCbor = .ok metadata := metadataOk
  rw [Transaction.size, encode, toCbor, bodyOk', metadataOk']
  show Except.ok (Cbor.array [_, t.witnesses.toCbor, .bool t.isValid, .option metadata]).length = _
  rw [Cbor.length_array, List.map_cons, List.sum_cons, length]
  simp only [List.map_cons, List.map_nil, List.sum_cons, List.sum_nil]
  refine congrArg Except.ok ?_
  show Cbor.headLength 4 + _ = _
  omega

/-- Each key counts with its bytes. -/
theorem keys_le_size {t : Transaction} {size : Nat} (h : t.size = .ok size) :
    101 * t.witnesses.keys.length ≤ size := by
  obtain ⟨body, metadata, _, _, rfl⟩ := size_ok h
  have inside : t.witnesses.toCbor.length ≤
      (Cbor.array [body, t.witnesses.toCbor, .bool t.isValid, .option metadata]).length :=
    Cbor.length_le_of_mem_array (.tail _ (.head _))
  refine le_trans ?_ inside
  cases keys : t.witnesses.keys with
  | nil => exact Nat.zero_le _
  | cons key others =>
    have all := KeyWitness.length_all (key :: others)
    have field : (Cbor.array ((key :: others).map KeyWitness.toCbor)).length ≤
        t.witnesses.toCbor.length := by
      refine Cbor.length_le_of_mem_fields 0 ?_
      rw [keys]
      exact .head _
    omega

end Transaction

end ConwayTx
