import ConwayTx.Proofs.Redeemer.Placement

/-!
# What pointers designate

A pointer designates at most one target in an encoded body: the one that the layout of the body
answers (`designates_iff`). Pointers past the end of a container, or to certificates, designate
nothing.
-/

namespace ConwayTx

open Outcome

namespace TxBody

variable {b : TxBody} {c : Cbor}

theorem input_of_at (h : b.toCbor = .ok c) {i : Nat} {ref : TxIn}
    (there : (c.field? 0).bind (·.item? i) = some ref.toCbor) : b.inputs.keys[i]? = some ref := by
  cases placed : b.inputs.keys[i]? with
  | some other =>
    rw [input_at h placed] at there
    rw [TxIn.toCbor_inj (Option.some.inj there)]
  | none =>
    obtain ⟨outputs, mint, returned, _, _, _, rfl⟩ := toCbor_ok h
    have listed : (0, some (refsToCbor b.inputs)) ∈ b.fields outputs mint returned := .head _
    rw [Cbor.field?_fields (b.nodup_fields _ _ _) listed, Option.bind_some] at there
    have past : (b.inputs.keys.map TxIn.toCbor)[i]? = none := by rw [List.getElem?_map, placed]; rfl
    cases past.symm.trans there

theorem policy_of_at (h : b.toCbor = .ok c) (canonical : (b.mint.getD ∅).Canonical) {i : Nat}
    {policy : PolicyId} (there : (c.field? 9).bind (·.key? i) = some (.bytes policy.bytes)) :
    (b.mint.getD ∅).keys[i]? = some policy := by
  cases placed : (b.mint.getD ∅).keys[i]? with
  | some other =>
    rw [policy_at h canonical placed] at there
    rw [Cbor.digest_inj (Option.some.inj there)]
  | none =>
    obtain ⟨outputs, mint, returned, _, minted, _, rfl⟩ := toCbor_ok h
    cases given : b.mint with
    | none =>
      rw [given] at minted
      obtain rfl := pure_ok minted
      have listed : (9, none) ∈ b.fields outputs none returned := by simp [fields]
      rw [Cbor.field?_fields_none (b.nodup_fields _ _ _) listed] at there
      cases there
    | some m =>
      rw [given] at placed minted canonical
      cases option_mapM_ok minted with
      | some written =>
        obtain ⟨entries, rfl, policies⟩ := MultiAsset.mintToCbor_ok canonical written
        have listed : (9, some (.map entries)) ∈ b.fields outputs (some (.map entries)) returned := by
          simp [fields]
        rw [Cbor.field?_fields (b.nodup_fields _ _ _) listed, Option.bind_some] at there
        have past : (entries.map Prod.fst)[i]? = none := by
          rw [policies, List.getElem?_map]
          exact congrArg (Option.map _) placed
        rw [List.getElem?_map] at past
        cases past.symm.trans there

theorem account_of_at (h : b.toCbor = .ok c) {i : Nat} {address : StakeAddress}
    (there : (c.field? 5).bind (·.key? i) = some address.toCbor) :
    b.withdrawals.keys[i]? = some address := by
  cases placed : b.withdrawals.keys[i]? with
  | some other =>
    rw [account_at h placed] at there
    rw [StakeAddress.toCbor_inj (Option.some.inj there)]
  | none =>
    obtain ⟨outputs, mint, returned, _, _, _, rfl⟩ := toCbor_ok h
    cases empty : b.withdrawals.isEmpty with
    | true =>
      have listed : (5, none) ∈ b.fields outputs mint returned := by
        simp [fields, unlessEmpty, empty]
      rw [Cbor.field?_fields_none (b.nodup_fields _ _ _) listed] at there
      cases there
    | false =>
      have listed : (5, some b.withdrawals.toCbor) ∈ b.fields outputs mint returned := by
        simp [fields, unlessEmpty, empty]
      rw [Cbor.field?_fields (b.nodup_fields _ _ _) listed, Option.bind_some] at there
      have past : b.withdrawals.entries[i]? = none := by
        rw [SortedMap.keys, List.getElem?_map] at placed
        exact Option.map_eq_none_iff.1 placed
      have absent : ((b.withdrawals.entries.map fun e =>
          (e.1.toCbor, Cbor.unsigned e.2))[i]?).map Prod.fst = none := by
        rw [List.getElem?_map, past]
        rfl
      cases absent.symm.trans there

end TxBody

namespace RedeemerLayout

/-- Encoding a body loses nothing of what its layout answers. -/
theorem designates_iff {b : TxBody} {c : Cbor} {p : RedeemerPointer} {target : RedeemerTarget}
    (h : b.toCbor = .ok c) (canonical : (b.mint.getD ∅).Canonical) :
    Designates c p target ↔ (ofBody b).target? p = some target := by
  obtain ⟨tag, index⟩ := p
  cases target with
  | spend ref =>
    cases tag with
    | spend =>
      have answer : (ofBody b).target? ⟨.spend, index⟩ = some (.spend ref) ↔
          b.inputs.keys[index.toNat]? = some ref := by
        simp [target?, ofBody]
      rw [answer]
      refine ⟨fun designated => TxBody.input_of_at h designated.2, fun placed => ⟨rfl, ?_⟩⟩
      exact TxBody.input_at h placed
    | _ => simp [Designates, target?]
  | mint policy =>
    cases tag with
    | mint =>
      have answer : (ofBody b).target? ⟨.mint, index⟩ = some (.mint policy) ↔
          (b.mint.getD ∅).keys[index.toNat]? = some policy := by
        simp [target?, ofBody]
      rw [answer]
      refine ⟨fun designated => TxBody.policy_of_at h canonical designated.2, fun placed => ⟨rfl, ?_⟩⟩
      exact TxBody.policy_at h canonical placed
    | _ => simp [Designates, target?]
  | reward credential =>
    cases tag with
    | reward =>
      have answer : (ofBody b).target? ⟨.reward, index⟩ = some (.reward credential) ↔
          ∃ address, b.withdrawals.keys[index.toNat]? = some address ∧
            address.credential = credential := by
        simp [target?, ofBody]
      rw [answer]
      constructor
      · rintro ⟨_, address, same, there⟩
        exact ⟨address, TxBody.account_of_at h there, same⟩
      · rintro ⟨address, placed, same⟩
        exact ⟨rfl, address, same, TxBody.account_at h placed⟩
    | _ => simp [Designates, target?]

end RedeemerLayout

end ConwayTx
