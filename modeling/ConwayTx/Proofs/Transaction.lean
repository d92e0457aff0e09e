import ConwayTx.Proofs.Cbor.Length
import ConwayTx.Proofs.Value.Canonical
import ConwayTx.Transaction

/-!
# Sizes of transactions

All key witnesses are as long as a placeholder, so fewer of them make a transaction no longer
(`size_keys_le`). A size also counts what the body lists.
-/

namespace ConwayTx

open Outcome

/-! ### Witnesses -/

theorem KeyWitness.length_toCbor (w : KeyWitness) : w.toCbor.length = 101 := by
  have key : (Cbor.bytes w.key.bytes).length = 34 := Cbor.length_digest w.key
  have signature : (Cbor.bytes w.signature.bytes).length = 66 := Cbor.length_digest w.signature
  rw [toCbor, Cbor.length_array, List.map_cons, List.map_cons, List.map_nil, key, signature]
  rfl

theorem KeyWitness.length_all (keys : List KeyWitness) :
    (Cbor.array (keys.map toCbor)).length = Cbor.headLength keys.length + 101 * keys.length := by
  have each : (keys.map toCbor).map Cbor.length = List.replicate keys.length 101 := by
    rw [List.map_map, ← List.map_const']
    exact List.map_congr_left fun w _ => w.length_toCbor
  rw [Cbor.length_array, each, List.length_map, List.sum_replicate, smul_eq_mul, Nat.mul_comm]

namespace WitnessSet

def withKeys (w : WitnessSet) (keys : List KeyWitness) : WitnessSet := { w with keys }

theorem addKey_eq_withKeys (w : WitnessSet) (witness : KeyWitness) :
    w.addKey witness = w.withKeys (w.addKey witness).keys := by
  unfold addKey
  split <;> rfl

/-- The number of keys decides the length, and more keys make no shorter witnesses. -/
theorem length_keys_le (w : WitnessSet) {few many : List KeyWitness}
    (le : few.length ≤ many.length) :
    (w.withKeys few).toCbor.length ≤ (w.withKeys many).toCbor.length := by
  cases many with
  | nil =>
    have none : few = [] := List.eq_nil_of_length_eq_zero (Nat.le_zero.1 le)
    rw [none]
  | cons first rest =>
    refine Cbor.length_fields_le 0 _ fun c mem => ?_
    unfold unlessEmpty at mem
    split at mem
    · cases mem
    · cases mem
      have := Cbor.headLength_mono le
      show (Cbor.array (few.map KeyWitness.toCbor)).length ≤
        (Cbor.array ((first :: rest).map KeyWitness.toCbor)).length
      rw [KeyWitness.length_all, KeyWitness.length_all]
      omega

end WitnessSet

namespace Transaction

theorem size_ok {t : Transaction} {size : Nat} (h : t.size = .ok size) :
    ∃ body metadata, t.body.toCbor = .ok body ∧ t.metadata.mapM Metadata.toCbor = .ok metadata ∧
      size = (Cbor.array [body, t.witnesses.toCbor, .bool t.isValid, .option metadata]).length := by
  obtain ⟨encoded, encodes, h⟩ := bind_ok h
  obtain ⟨item, items, encodes⟩ := bind_ok encodes
  obtain ⟨body, bodyOk, items⟩ := bind_ok items
  obtain ⟨metadata, metadataOk, items⟩ := bind_ok items
  refine ⟨body, metadata, bodyOk, metadataOk, ?_⟩
  rw [← pure_ok h, ← pure_ok encodes, ← pure_ok items]
  rfl

def withKeys (t : Transaction) (keys : List KeyWitness) : Transaction :=
  { t with witnesses := t.witnesses.withKeys keys }

/-- Fewer keys fit where more of them did. -/
theorem size_keys_le {t : Transaction} {few many : List KeyWitness} {size : Nat}
    (h : (t.withKeys many).size = .ok size) (le : few.length ≤ many.length) :
    ∃ smaller, (t.withKeys few).size = .ok smaller ∧ smaller ≤ size := by
  obtain ⟨body, metadata, bodyOk, metadataOk, rfl⟩ := size_ok h
  have bodyFew : (t.withKeys few).body.toCbor = .ok body := bodyOk
  have metadataFew : (t.withKeys few).metadata.mapM Metadata.toCbor = .ok metadata := metadataOk
  refine ⟨_, ?_, Cbor.length_array_le [body] _ (t.witnesses.length_keys_le le)⟩
  rw [size, encode, toCbor, bodyFew, metadataFew]
  rfl

end Transaction

/-! ### Counts -/

namespace TxBody

theorem count_unlessEmpty {κ α : Type} [Ord κ] {m : SortedMap κ α} {key : UInt8} {item : Cbor}
    {entries : List (UInt8 × Option Cbor)} (mem : (key, unlessEmpty m item) ∈ entries)
    (count : m.keys.length ≤ item.length) : m.keys.length ≤ (Cbor.fields entries).length := by
  unfold unlessEmpty at mem
  split at mem
  · rename_i empty
    rw [SortedMap.keys, List.isEmpty_iff.1 empty]
    exact Nat.zero_le _
  · exact count.trans (Cbor.length_le_of_mem_fields key mem)

/-- A body is written with all its inputs, withdrawals and minting policies. -/
theorem count_le_length {body : TxBody} {item : Cbor} (h : body.toCbor = .ok item) :
    body.inputs.keys.length ≤ item.length ∧ body.withdrawals.keys.length ≤ item.length ∧
      ((body.mint.getD ∅).Canonical → (body.mint.getD ∅).keys.length ≤ item.length) := by
  obtain ⟨outputs, _, h⟩ := bind_ok h
  obtain ⟨mint, minted, h⟩ := bind_ok h
  obtain ⟨returned, _, h⟩ := bind_ok h
  rw [← pure_ok h]
  refine ⟨?_, ?_, fun canonical => ?_⟩
  · have count := Cbor.count_le_array (body.inputs.keys.map TxIn.toCbor)
    rw [List.length_map] at count
    exact count.trans (Cbor.length_le_of_mem_fields 0 (.head _))
  · refine count_unlessEmpty (.tail _ (.tail _ (.tail _ (.tail _ (.tail _ (.head _)))))) ?_
    refine Eq.trans_le ?_ (Cbor.count_le_map _)
    rw [SortedMap.keys, List.length_map, List.length_map]
  · cases given : body.mint with
    | none => exact Nat.zero_le _
    | some m =>
      rw [given, Option.getD_some] at canonical
      rw [given] at minted
      obtain ⟨written, writes, minted⟩ := bind_ok minted
      obtain ⟨entries, rfl, policies⟩ := MultiAsset.mintToCbor_ok canonical writes
      have count := Cbor.count_le_map entries
      have same := congrArg List.length policies
      rw [List.length_map, List.length_map] at same
      rw [Option.getD_some, ← same, ← pure_ok minted]
      refine count.trans (Cbor.length_le_of_mem_fields 9 ?_)
      exact .tail _ (.tail _ (.tail _ (.tail _ (.tail _ (.tail _ (.tail _ (.tail _ (.head _))))))))

end TxBody

theorem Transaction.count_le_size {t : Transaction} {size : Nat} (h : t.size = .ok size) :
    t.body.inputs.keys.length ≤ size ∧ t.body.withdrawals.keys.length ≤ size ∧
      ((t.body.mint.getD ∅).Canonical → (t.body.mint.getD ∅).keys.length ≤ size) := by
  obtain ⟨body, metadata, bodyOk, _, rfl⟩ := size_ok h
  obtain ⟨inputs, withdrawals, mint⟩ := TxBody.count_le_length bodyOk
  have inside := Cbor.length_le_of_mem_array
    (List.mem_cons_self (a := body) (l := [t.witnesses.toCbor, .bool t.isValid, .option metadata]))
  exact ⟨inputs.trans inside, withdrawals.trans inside, fun canonical => (mint canonical).trans inside⟩

end ConwayTx
