import ConwayTx.Collateral
import ConwayTx.Proofs.Fraction
import ConwayTx.Proofs.Outcome
import ConwayTx.Proofs.Output.Minimum
import ConwayTx.Proofs.Selection.Candidates

/-!
# Collateral

The share of a fee is exact and rounded up (`forFee_eq`). Whichever output serves, the total is the
target, and what is returned holds its own minimum (`select_ok`).
-/

namespace ConwayTx.Collateral

open Outcome

/-- Exact, or reported where no word holds it. -/
theorem forFee_eq (fee : Amount) (percent : UInt32) :
    forFee fee percent = match Amount.ofNat? (fee.toNat * percent.toNat ⌈/⌉ 100) with
      | some amount => .ok amount
      | none => .error (.refused (.arithmeticOverflow .collateral)) := by
  obtain ⟨share, reduced⟩ := @Fraction.reduce?_isSome percent.toUInt64 100 (by decide)
  have cross := Fraction.reduce?_cross reduced
  have exact_share : fee.toNat * share.numer.toNat ⌈/⌉ share.denom.toNat =
      fee.toNat * percent.toNat ⌈/⌉ 100 := by
    refine Fraction.ceilDiv_eq_of_cross share.toNat_denom_pos (by decide) ?_
    have parts : share.numer.toNat * 100 = percent.toNat * share.denom.toNat := by
      simpa using cross
    rw [Nat.mul_assoc, Nat.mul_assoc, parts]
  cases fits : Amount.ofNat? (fee.toNat * percent.toNat ⌈/⌉ 100) with
  | none => simp only [forFee, reduced, Fraction.ceil?_scale, exact_share, fits]
  | some amount => simp only [forFee, reduced, Fraction.ceil?_scale, exact_share, fits]

theorem forFee_ok {fee amount : Amount} {percent : UInt32} (h : forFee fee percent = .ok amount) :
    amount.toNat = fee.toNat * percent.toNat ⌈/⌉ 100 := by
  rw [forFee_eq] at h
  split at h
  · rename_i exact_amount
    cases h
    exact Amount.ofNat?_eq_some_iff.1 exact_amount
  · cases h

variable {target coinsPerByte : Amount} {returnAddress : Address} {choice : Choice}

/-- An output that serves is the collateral, for exactly the target. -/
theorem serve?_ok {u : Utxo} (h : serve? target returnAddress coinsPerByte u = .ok (some choice)) :
    choice.input = u ∧ choice.total = target ∧
      ∀ o ∈ choice.returned, o.Admissible coinsPerByte := by
  unfold serve? at h
  split at h
  · cases h
  · split at h
    · cases h
      exact ⟨rfl, rfl, fun o mem => by cases mem⟩
    · obtain ⟨required, minimum, h⟩ := bind_ok h
      split at h
      · cases h
      · rename_i enough
        cases h
        refine ⟨rfl, rfl, fun o mem => ?_⟩
        cases mem
        exact ⟨required, mapError_ok minimum, UInt64.not_lt.1 enough⟩

theorem firstServing_ok {offered : List Utxo}
    (h : firstServing target returnAddress coinsPerByte offered = .ok choice) :
    choice.input ∈ offered ∧ choice.total = target ∧
      ∀ o ∈ choice.returned, o.Admissible coinsPerByte := by
  induction offered with
  | nil => cases h
  | cons u rest ih =>
    rw [firstServing] at h
    obtain ⟨served, serves, h⟩ := bind_ok h
    split at h
    · cases h
      obtain ⟨rfl, terms⟩ := serve?_ok serves
      exact ⟨.head _, terms⟩
    · obtain ⟨listed, terms⟩ := ih h
      exact ⟨.tail _ listed, terms⟩

/-- The collateral comes from the pool or from the fallback. -/
theorem select_ok {pool fallback : List Utxo} {used : SortedSet TxIn}
    (h : select pool used fallback target returnAddress coinsPerByte = .ok choice) :
    (choice.input ∈ pool ∨ choice.input ∈ fallback) ∧ choice.total = target ∧
      ∀ o ∈ choice.returned, o.Admissible coinsPerByte := by
  obtain ⟨listed, terms⟩ := firstServing_ok h
  refine ⟨?_, terms⟩
  rcases List.mem_append.1 (List.mem_filter.1 listed).1 with candidate | later
  · exact .inl (Selection.mem_unused.1 (Selection.subset_ranked _ (List.mem_reverse.1 candidate))).1
  · exact .inr later

end ConwayTx.Collateral
