import ConwayTx.Proofs.Balance.Order
import ConwayTx.Proofs.Outcome.Following
import ConwayTx.Proofs.Value.Sums

/-!
# Balancing and the order of inputs

Inputs count by their sum and by the set of their references. A sum that is out of range says where
it was left, so the errors depend on the order; what ends well does not. It ends with one
transaction, of the same inputs (`follows_balance`).
-/

namespace ConwayTx

open Outcome

theorem Draft.assemble_perm (d : Draft) {inputs inputs' : List Utxo} (perm : inputs.Perm inputs')
    (change : List TxOutput) (fee : Amount) (models : CostModels) :
    d.assemble inputs change fee models = d.assemble inputs' change fee models := by
  unfold assemble
  rw [SortedMap.addKeys_perm (perm.map Utxo.ref)]

/-- One transaction, of inputs in another order. -/
def Balanced.Rearranged (r r' : Balanced) : Prop :=
  ∃ others, r.inputs.Perm others ∧ r' = { r with inputs := others }

namespace Balancer

variable {b : Balancer} {extraSupply demand : Value} {inputs inputs' spare : List Utxo}

theorem follows_supplyOf (perm : inputs.Perm inputs') :
    Follows Eq (supplyOf extraSupply inputs) (supplyOf extraSupply inputs') :=
  fun supply h => ⟨supply, foldlM_perm perm (fun u v => Value.add_swap u.value v.value) h, rfl⟩

theorem withoutRefs_perm (perm : inputs.Perm inputs') (pool : List Utxo) :
    withoutRefs pool inputs = withoutRefs pool inputs' := by
  unfold withoutRefs
  simp only [perm.any_eq]

/-! ### Funding -/

theorem follows_fundStep (perm : inputs.Perm inputs') :
    Follows Eq (fundStep b extraSupply demand inputs spare)
      (fundStep b extraSupply demand inputs' spare) := by
  unfold fundStep
  cases sum : supplyOf extraSupply inputs with
  | error e => exact .error
  | ok supply =>
    obtain ⟨_, sum', rfl⟩ := follows_supplyOf perm supply sum
    rw [sum', perm.isEmpty_eq]
    exact .refl _

/-- One change with one rest of the pool, of inputs in another order. -/
def Funded.Rearranged (f f' : Funded) : Prop :=
  ∃ others, f.inputs.Perm others ∧ f' = { f with inputs := others }

theorem follows_fund (perm : inputs.Perm inputs') :
    Follows Funded.Rearranged (b.fund extraSupply demand inputs spare)
      (b.fund extraSupply demand inputs' spare) := by
  fun_induction fund b extraSupply demand inputs spare generalizing inputs' with
  | case1 => exact .error
  | case2 inputs spare change step =>
    obtain ⟨_, step', rfl⟩ := follows_fundStep perm _ step
    rw [fund_of_settled step']
    exact .ok ⟨inputs', perm, rfl⟩
  | case3 inputs spare picks nonempty sub step _ ih =>
    obtain ⟨_, step', rfl⟩ := follows_fundStep perm _ step
    rw [fund_of_take step']
    exact ih (perm.append_right picks)

/-! ### Rounds -/

variable {terms : Terms} {fee : Amount}

/-- One transaction and one rest of the pool, of inputs in another order. -/
def Round.Rearranged (r r' : Round) : Prop :=
  ∃ others, r.inputs.Perm others ∧ r' = { r with inputs := others }

theorem follows_round (perm : inputs.Perm inputs') :
    Follows Round.Rearranged (b.round terms fee inputs spare)
      (b.round terms fee inputs' spare) := by
  refine .bind_same fun demand => (follows_fund perm).bind ?_
  rintro funded _ ⟨others, same, rfl⟩
  refine .mapError ?_
  dsimp only
  rw [terms.draft.assemble_perm same]
  exact .bind_same fun tx => .bind_same fun estimate => .ok ⟨others, same, rfl⟩

theorem follows_accept {r r' : Round} (same : r.Rearranged r') :
    Follows Balanced.Rearranged (b.accept r) (b.accept r') := by
  obtain ⟨others, perm, rfl⟩ := same
  unfold accept
  dsimp only
  split
  · exact .error
  · exact .ok ⟨others, perm, rfl⟩

theorem follows_rounds (perm : inputs.Perm inputs') (allowed : Nat) :
    Follows Balanced.Rearranged (b.rounds terms allowed fee inputs spare)
      (b.rounds terms allowed fee inputs' spare) := by
  induction allowed generalizing fee inputs inputs' spare with
  | zero => exact .error
  | succ left ih =>
    refine (follows_round perm).bind fun r r' same => ?_
    have accepted := follows_accept (b := b) same
    obtain ⟨others, perm, rfl⟩ := same
    dsimp only
    split
    · exact accepted.mapError
    · exact ih perm

/-- From inputs in another order. -/
theorem follows_balance (perm : inputs.Perm inputs') (draft : Draft) :
    Follows Balanced.Rearranged (b.balance draft inputs) (b.balance draft inputs') := by
  refine .bind_same fun scriptCost => .bind_same fun extraSupply => .bind_same fun baseDemand => ?_
  have first (terms : Terms) : b.firstFee terms inputs = b.firstFee terms inputs' := by
    unfold firstFee
    rw [terms.draft.assemble_perm perm]
  dsimp only
  rw [first, withoutRefs_perm perm]
  exact .bind_same fun fee => follows_rounds perm _

end Balancer

end ConwayTx
