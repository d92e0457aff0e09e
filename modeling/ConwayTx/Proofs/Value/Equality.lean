import ConwayTx.Proofs.Value.Sums

/-!
# Equality of what is computed

Whatever its operands hold, an operation on values returns a canonical one (`Computed.canonical`).
Such values are equal where their lovelace and their quantities are (`computed_beq_iff`), and have no
asset map where they have no quantity.
-/

namespace ConwayTx.Value

/-! ### What operations return -/

theorem canonical_ofCoin (coin : Amount) : (ofCoin coin).Canonical := fun _ held => by cases held

theorem canonical_withAssets (coin : Amount) (assets : MultiAsset) :
    (withAssets coin assets).Canonical :=
  canonical_prune _

theorem canonical_sub {a b v : Value} (difference : a.sub b = .ok v) : v.Canonical := by
  unfold sub at difference
  split at difference
  · cases difference
  · split at difference
    · cases difference
    · split at difference <;> cases difference <;> exact canonical_prune _

theorem canonical_monus (required supplied : Value) : (required.monus supplied).Canonical := by
  refine List.foldlRecOn required.positive _ (canonical_ofCoin _) ?_
  rintro v canonical ⟨p, n, q⟩ _
  dsimp only
  split
  · exact canonical_addAsset _ _ _ _
  · exact canonical

/-- Returned by an operation. The operands may be any values, among them what other operations
returned. -/
inductive Computed : Value → Prop
  | withAssets (coin : Amount) (assets : MultiAsset) : Computed (.withAssets coin assets)
  | addAsset (v : Value) (p : PolicyId) (n : AssetName) (q : ℤ) : Computed (v.addAsset p n q)
  | add {a b v : Value} (sum : a.add b = .ok v) : Computed v
  | sub {a b v : Value} (difference : a.sub b = .ok v) : Computed v
  | monus (required supplied : Value) : Computed (required.monus supplied)

theorem Computed.canonical {v : Value} (computed : Computed v) : v.Canonical := by
  cases computed with
  | withAssets coin assets => exact canonical_withAssets coin assets
  | addAsset v p n q => exact canonical_addAsset v p n q
  | add sum => exact canonical_add sum
  | sub difference => exact canonical_sub difference
  | monus required supplied => exact canonical_monus required supplied

/-! ### Known by their quantities -/

theorem Canonical.assets_eq_none_iff {v : Value} (canonical : v.Canonical) :
    v.assets = none ↔ ∀ p n, v.quantity p n = 0 := by
  constructor
  · intro none p n
    rw [Value.quantity, Value.bundle, none]
    rfl
  · intro nothing
    have same : v = ofCoin v.coin := canonical.eq_of_quantity (canonical_ofCoin _) rfl nothing
    rw [same]
    rfl

theorem beq_iff {v w : Value} : (v == w) = true ↔ v.coin = w.coin ∧ v.bundle = w.bundle := by
  show (decide (v.coin = w.coin) && decide (v.bundle = w.bundle)) = true ↔ _
  rw [Bool.and_eq_true, decide_eq_true_eq, decide_eq_true_eq]

theorem Canonical.beq_iff {v w : Value} (canonical : v.Canonical) (canonical' : w.Canonical) :
    (v == w) = true ↔ v.coin = w.coin ∧ ∀ p n, v.quantity p n = w.quantity p n := by
  rw [Value.beq_iff]
  refine and_congr_right fun _ => ⟨fun same p n => ?_, fun same => ?_⟩
  · rw [quantity, quantity, same]
  · exact canonical.bundle.eq_of_quantity canonical'.bundle same

theorem computed_beq_iff :
    (∀ v, Computed v → v.Canonical ∧ (v.assets = none ↔ ∀ p n, v.quantity p n = 0)) ∧
    ∀ v w, Computed v → Computed w →
      ((v == w) = true ↔ v.coin = w.coin ∧ ∀ p n, v.quantity p n = w.quantity p n) :=
  ⟨fun _ computed => ⟨computed.canonical, computed.canonical.assets_eq_none_iff⟩,
    fun _ _ computed computed' => computed.canonical.beq_iff computed'.canonical⟩

/-- An entry put in and taken out again leaves no trace. -/
theorem computed_beq_iff_taken_out :
    let name : AssetName := ⟨[7], by decide⟩
    let raw : MultiAsset := .ofList [(.zero, .ofList [(name, 0)]), (⟨.replicate 28 1, by decide⟩, ∅)]
    let v : Value := .addAsset ⟨5, some raw⟩ .zero name 3
    let w : Value := .withAssets 5 (.ofList [(.zero, .ofList [(name, 3)])])
    let rest : Value := v.addAsset .zero name (-3)
    Computed v ∧ Computed w ∧ (v == w) = true ∧ (∀ p n, v.quantity p n = w.quantity p n) ∧
      Computed rest ∧ rest.assets = none ∧ ∀ p n, rest.quantity p n = 0 := by
  intro name raw v w rest
  have computed : Computed v := .addAsset _ _ _ _
  have computed' : Computed w := .withAssets _ _
  have left : Computed rest := .addAsset _ _ _ _
  have same : (v == w) = true := by decide +kernel
  have none : rest.assets = none := by decide +kernel
  obtain ⟨each, pairs⟩ := computed_beq_iff
  exact ⟨computed, computed', same, ((pairs v w computed computed').1 same).2, left, none,
    (each rest left).2.1 none⟩

end ConwayTx.Value
