import ConwayTx.Proofs.Value.Wire

/-!
# Sums in any order

Arithmetic leaves values without zero quantities, empty policies and empty maps. Such a value is
known by its lovelace and its quantities (`Canonical.eq_of_quantity`), so that summands can change
places (`add_swap`, `addAsset_comm`).
-/

namespace ConwayTx.Value

theorem Canonical.assets_eq {v : Value} (canonical : v.Canonical) :
    v.assets = if v.bundle.isEmpty then none else some v.bundle := by
  unfold Value.bundle
  cases held : v.assets with
  | none => rfl
  | some m =>
    rw [Option.getD_some, (canonical m held).2]
    rfl

theorem Canonical.eq_of_quantity {v w : Value} (canonical : v.Canonical) (canonical' : w.Canonical)
    (coin : v.coin = w.coin) (same : ∀ p n, v.quantity p n = w.quantity p n) : v = w := by
  have bundles : v.bundle = w.bundle := canonical.bundle.eq_of_quantity canonical'.bundle same
  refine Value.ext coin ?_
  rw [canonical.assets_eq, canonical'.assets_eq, bundles]

/-! ### Summands change places -/

theorem addAsset_comm (v : Value) (p p' : PolicyId) (n n' : AssetName) (q q' : Int) :
    (v.addAsset p n q).addAsset p' n' q' = (v.addAsset p' n' q').addAsset p n q := by
  refine (canonical_addAsset _ _ _ _).eq_of_quantity (canonical_addAsset _ _ _ _) ?_ ?_
  · rw [coin_addAsset, coin_addAsset, coin_addAsset, coin_addAsset]
  · intro policy name
    rw [quantity_addAsset, quantity_addAsset, quantity_addAsset, quantity_addAsset, add_right_comm]

theorem exists_add {a b : Value} (fits : a.coin.toNat + b.coin.toNat < UInt64.size) :
    ∃ v, a.add b = .ok v := by
  unfold add
  split
  · rename_i overflow
    have above := Amount.ofNat?_eq_none_iff.1 overflow
    unfold Amount.largest at above
    omega
  · split
    · exact ⟨_, rfl⟩
    · exact ⟨_, rfl⟩

theorem add_swap (b b' a v w : Value) (first : a.add b = .ok v) (second : v.add b' = .ok w) :
    ∃ v', a.add b' = .ok v' ∧ v'.add b = .ok w := by
  obtain ⟨coin, assets⟩ := of_add_ok first
  obtain ⟨coin', assets'⟩ := of_add_ok second
  have fits := w.coin.toNat_lt_size
  obtain ⟨v', other⟩ := exists_add (a := a) (b := b') (by omega)
  obtain ⟨otherCoin, otherAssets⟩ := of_add_ok other
  obtain ⟨w', last⟩ := exists_add (a := v') (b := b) (by omega)
  obtain ⟨lastCoin, lastAssets⟩ := of_add_ok last
  have same : w' = w := by
    refine (canonical_add last).eq_of_quantity (canonical_add second) ?_ fun p n => ?_
    · exact UInt64.toNat_inj.1 (by omega)
    · rw [lastAssets, otherAssets, assets', assets, add_right_comm]
  exact ⟨v', other, same ▸ last⟩

end ConwayTx.Value
