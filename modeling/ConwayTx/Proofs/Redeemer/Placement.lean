import ConwayTx.Proofs.Cbor.Fields
import ConwayTx.Proofs.Redeemer.Layout
import ConwayTx.Proofs.Transaction.Content

/-!
# Where redeemers point

A pointer counts items of a container as the encoded body has it: inputs, policies of the mint, or
withdrawals. The layout of the body gives every target the pointer that designates it
(`designates_of_pointer?`).
-/

namespace ConwayTx

open Outcome

/-! ### Designation -/

/-- The place that a pointer names in an encoded body is the target's: its input, its policy, or the
account of its credential. -/
def Designates (body : Cbor) (p : RedeemerPointer) : RedeemerTarget → Prop
  | .spend ref => p.tag = .spend ∧ (body.field? 0).bind (·.item? p.index.toNat) = some ref.toCbor
  | .mint policy =>
    p.tag = .mint ∧ (body.field? 9).bind (·.key? p.index.toNat) = some (.bytes policy.bytes)
  | .reward credential =>
    p.tag = .reward ∧ ∃ address : StakeAddress, address.credential = credential ∧
      (body.field? 5).bind (·.key? p.index.toNat) = some address.toCbor

namespace TxBody

variable {b : TxBody} {c : Cbor}

theorem nodup_fields (b : TxBody) (outputs : List Cbor) (mint returned : Option Cbor) :
    ((b.fields outputs mint returned).map Prod.fst).Nodup := by
  have keys : (b.fields outputs mint returned).map Prod.fst =
      [0, 1, 2, 3, 4, 5, 7, 8, 9, 11, 13, 14, 15, 16, 17, 18] := rfl
  rw [keys]
  decide

theorem input_at (h : b.toCbor = .ok c) {i : Nat} {ref : TxIn}
    (placed : b.inputs.keys[i]? = some ref) :
    (c.field? 0).bind (·.item? i) = some ref.toCbor := by
  obtain ⟨outputs, mint, returned, _, _, _, rfl⟩ := toCbor_ok h
  have listed : (0, some (refsToCbor b.inputs)) ∈ b.fields outputs mint returned := .head _
  rw [Cbor.field?_fields (b.nodup_fields _ _ _) listed, Option.bind_some]
  show (b.inputs.keys.map TxIn.toCbor)[i]? = _
  rw [List.getElem?_map, placed]
  rfl

theorem policy_at (h : b.toCbor = .ok c) (canonical : (b.mint.getD ∅).Canonical) {i : Nat}
    {policy : PolicyId} (placed : (b.mint.getD ∅).keys[i]? = some policy) :
    (c.field? 9).bind (·.key? i) = some (.bytes policy.bytes) := by
  obtain ⟨outputs, mint, returned, _, minted, _, rfl⟩ := toCbor_ok h
  cases given : b.mint with
  | none =>
    rw [given] at placed
    cases placed
  | some m =>
    rw [given] at placed minted canonical
    cases option_mapM_ok minted with
    | some written =>
      obtain ⟨entries, rfl, policies⟩ := MultiAsset.mintToCbor_ok canonical written
      have listed : (9, some (.map entries)) ∈ b.fields outputs (some (.map entries)) returned := by
        simp [fields]
      rw [Cbor.field?_fields (b.nodup_fields _ _ _) listed, Option.bind_some]
      show entries[i]?.map Prod.fst = _
      rw [← List.getElem?_map, policies, List.getElem?_map]
      exact congrArg (Option.map _) placed

theorem account_at (h : b.toCbor = .ok c) {i : Nat} {address : StakeAddress}
    (placed : b.withdrawals.keys[i]? = some address) :
    (c.field? 5).bind (·.key? i) = some address.toCbor := by
  obtain ⟨outputs, mint, returned, _, _, _, rfl⟩ := toCbor_ok h
  have filled : b.withdrawals.isEmpty = false := by
    cases empty : b.withdrawals.isEmpty with
    | false => rfl
    | true =>
      rw [SortedMap.keys, List.isEmpty_iff.1 empty] at placed
      cases placed
  have listed : (5, some b.withdrawals.toCbor) ∈ b.fields outputs mint returned := by
    simp [fields, unlessEmpty, filled]
  rw [Cbor.field?_fields (b.nodup_fields _ _ _) listed, Option.bind_some]
  show (b.withdrawals.entries.map _)[i]?.map Prod.fst = _
  rw [SortedMap.keys, List.getElem?_map] at placed
  obtain ⟨e, entry, rfl⟩ := Option.map_eq_some_iff.1 placed
  rw [List.getElem?_map, entry]
  rfl

end TxBody

namespace RedeemerLayout

theorem getElem?_of_idxOf? {α : Type} [BEq α] [LawfulBEq α] {items : List α} {a : α} {i : Nat}
    (found : items.idxOf? a = some i) : items[i]? = some a := by
  obtain ⟨bound, here, _⟩ := List.idxOf?_eq_some_iff.1 found
  exact List.getElem?_eq_some_iff.2 ⟨bound, here⟩

/-- The pointer that the layout of a body gives a target designates it in the encoded body. -/
theorem designates_of_pointer? {b : TxBody} {c : Cbor} {target : RedeemerTarget}
    {p : RedeemerPointer} (h : b.toCbor = .ok c) (canonical : (b.mint.getD ∅).Canonical)
    (small : (ofBody b).Small) (found : (ofBody b).pointer? target = some p) : Designates c p target := by
  obtain ⟨i, position, rfl⟩ := Option.map_eq_some_iff.1 found
  -- In a small layout the index is the position itself, not what is left of it in 32 bits.
  have index : (UInt32.ofNat i).toNat = i := UInt32.toNat_ofNat_of_lt' (position?_lt small position)
  cases target with
  | spend ref =>
    refine ⟨rfl, ?_⟩
    rw [index]
    exact TxBody.input_at h (getElem?_of_idxOf? position)
  | mint policy =>
    refine ⟨rfl, ?_⟩
    rw [index]
    exact TxBody.policy_at h canonical (getElem?_of_idxOf? position)
  | reward credential =>
    have placed : (b.withdrawals.keys.map StakeAddress.credential)[i]? = some credential :=
      getElem?_of_idxOf? position
    rw [List.getElem?_map] at placed
    obtain ⟨address, account, same⟩ := Option.map_eq_some_iff.1 placed
    refine ⟨rfl, address, same, ?_⟩
    rw [index]
    exact TxBody.account_at h account

end RedeemerLayout

end ConwayTx
