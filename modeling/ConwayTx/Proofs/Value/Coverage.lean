import ConwayTx.Proofs.Outcome.Failing
import ConwayTx.Proofs.Value.Arithmetic

/-!
# Coverage

What is still needed of a requirement is the least that covers it together with what is supplied
(`covers_add_iff`). Where only positive quantities are listed, to be covered is to be subtractable
(`covers_iff_exists_sub`), and arithmetic lists no others of a value without negative quantities
(`listed_pos`). So it is a matter of their funds alone (`refused_sub_iff_le`).
-/

namespace ConwayTx.Value

open Outcome

variable {a b : Value}

/-- One asset: a sum reaches a requirement where the summand reaches the rest of it. -/
theorem add_reaches_iff {required supplied r : ℤ} (sound : 0 ≤ r) :
    (0 < required → required ≤ supplied + r) ↔
      (let rest := if 0 < required then max 0 (required - supplied) else 0; 0 < rest → rest ≤ r) := by
  dsimp only
  split <;> omega

theorem covers_add_iff {required supplied r sum : Value} (sound : r.NoNegative)
    (added : supplied.add r = .ok sum) :
    sum.covers required = true ↔ r.covers (required.monus supplied) = true := by
  obtain ⟨coins, assets⟩ := of_add_ok added
  rw [covers_iff, covers_iff, coin_monus, coins]
  refine and_congr (by omega) (forall_congr' fun p => forall_congr' fun n => ?_)
  rw [quantity_monus, assets]
  exact add_reaches_iff (sound p n)

/-! ### Covered and subtractable -/

theorem covers_iff_listed :
    a.covers b = true ↔ b.coin.toNat ≤ a.coin.toNat ∧
      ∀ p n q, (p, n, q) ∈ b.bundle.listed → 0 < q → q ≤ a.quantity p n := by
  rw [covers_iff]
  refine and_congr_right fun _ => ⟨fun all p n q listed above => ?_, fun all p n above => ?_⟩
  · rw [← quantity_of_mem_listed listed] at above ⊢
    exact all p n above
  · exact all p n _ (List.mem_filter.1 (mem_positive.2 ⟨above, rfl⟩)).1 above

/-- What is not above zero has to be reached as well. -/
theorem exists_sub_of_covers (covered : a.covers b = true)
    (others : ∀ p n q, (p, n, q) ∈ b.bundle.listed → q ≤ 0 → q ≤ a.quantity p n) :
    ∃ d, a.sub b = .ok d := by
  obtain ⟨coins, above⟩ := covers_iff_listed.1 covered
  refine exists_sub_iff.2 ⟨coins, fun p n q listed => ?_⟩
  by_cases positive : 0 < q
  · exact above p n q listed positive
  · exact others p n q listed (not_lt.1 positive)

theorem covers_iff_exists_sub (positive : ∀ e ∈ b.bundle.listed, 0 < e.2.2) :
    a.covers b = true ↔ ∃ d, a.sub b = .ok d := by
  constructor
  · intro covered
    refine exists_sub_of_covers covered fun p n q listed below => ?_
    exact absurd (positive _ listed) (not_lt.2 below)
  · rintro ⟨d, difference⟩
    exact covers_of_sub difference

/-- Nothing that is covered is lacking where nothing is owed. -/
theorem exists_sub_of_noNegative (sound : a.NoNegative) (covered : a.covers b = true) :
    ∃ d, a.sub b = .ok d :=
  exists_sub_of_covers covered fun p n _ _ below => below.trans (sound p n)

theorem listed_pos {v : Value} (canonical : v.Canonical) (sound : v.NoNegative) :
    ∀ e ∈ v.bundle.listed, 0 < e.2.2 := by
  intro e listed
  have nonneg := noNegative_iff.1 sound e listed
  obtain ⟨entry, inside, within⟩ := List.mem_flatMap.1 listed
  obtain ⟨held, named, rfl⟩ := List.mem_map.1 within
  have nonzero := (canonical.bundle entry inside).2 held named
  dsimp only at nonneg ⊢
  omega

theorem refused_sub_iff_le (sound : a.NoNegative) (sound' : b.NoNegative) (canonical : b.Canonical) :
    Refused (a.sub b) ↔ ¬ b.funds ≤ a.funds := by
  rw [← covers_iff_le sound, covers_iff_exists_sub (listed_pos canonical sound'), ← not_refused_iff,
    not_not]

end ConwayTx.Value
