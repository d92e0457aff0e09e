import ConwayTx.Payment
import ConwayTx.Proofs.Output.Minimum
import ConwayTx.Proofs.Value.Funds

/-!
# Payments delivered

A payment asks for the sum of its lovelace and its units (`requested`). Its output has the assets to
the unit, and the least coin that is not below the lovelace asked for (`output_delivers`).
-/

namespace ConwayTx

open Outcome

/-- What a unit is worth. Units that name nothing are worth nothing. -/
def AssetUnit.funds (u : AssetUnit) : Funds :=
  match u.assetId with
  | .ok (some (policy, name)) =>
    (0, fun asset => if asset.1 = policy ∧ asset.2 = name then u.quantity.toInt else 0)
  | .ok none => Funds.ofCoin u.quantity.toInt.toNat
  | .error _ => 0

theorem AssetUnit.funds_value {u : AssetUnit} {v : Value} (h : u.value = .ok v) :
    v.funds = u.funds := by
  obtain ⟨asset, named, h⟩ := bind_ok h
  rw [funds, named]
  cases asset with
  | some asset =>
    obtain ⟨policy, name⟩ := asset
    obtain rfl := pure_ok h
    refine Prod.ext ?_ (funext fun asset => ?_)
    · show ((Value.ofCoin 0).addAsset policy name u.quantity.toInt).coin.toNat = 0
      rw [Value.coin_addAsset]
      rfl
    · show ((Value.ofCoin 0).addAsset policy name u.quantity.toInt).quantity asset.1 asset.2 = _
      rw [Value.quantity_addAsset, Value.quantity_ofCoin, zero_add]
  | none =>
    dsimp only at h
    split at h
    · cases h
    · rename_i nonneg
      obtain rfl := pure_ok h
      rw [Value.funds_ofCoin]
      have word : u.quantity.toUInt64.toNat = u.quantity.toInt.toNat :=
        Int64.toNat_toUInt64_of_le (Int64.not_lt.1 nonneg)
      rw [word]

namespace Payment

/-- Lovelace, also that among the units, and assets. -/
def requested (p : Payment) : Funds := Funds.ofCoin p.lovelace.toNat + (p.units.map AssetUnit.funds).sum

theorem funds_addUnit {v next : Value} {u : AssetUnit} (h : addUnit v u = .ok next) :
    next.funds = v.funds + u.funds := by
  unfold addUnit at h
  split at h
  · cases h
  · obtain ⟨one, valued, h⟩ := bind_ok h
    rw [Value.funds_add (mapError_ok h), AssetUnit.funds_value (mapError_ok valued)]

theorem funds_value {p : Payment} {v : Value} (h : p.value = .ok v) : v.funds = p.requested := by
  refine foldlM_ok (fun units v => v.funds = Funds.ofCoin p.lovelace.toNat +
    (units.map AssetUnit.funds).sum) h ?_ ?_
  · simp
  · intro done u v next sum added
    rw [funds_addUnit added, sum, List.map_append, List.sum_append, List.map_singleton,
      List.sum_singleton, add_assoc]

/-- The output is what the payment asks for, with the least coin that suffices for both. -/
structure Delivered (coinsPerByte : Amount) (p : Payment) (o : TxOutput) : Prop where
  address : o.address = p.address
  assets : o.value.funds.2 = p.requested.2
  datum : o.datum = p.datum
  script : o.script = p.script
  covers : p.requested.1 ≤ o.coin.toNat
  admissible : o.Admissible coinsPerByte
  least : ∀ coin : Amount, p.requested.1 ≤ coin.toNat →
    (o.withCoin coin).Admissible coinsPerByte → o.coin ≤ coin

theorem output_delivers {p : Payment} {coinsPerByte : Amount} {o : TxOutput}
    (h : p.output coinsPerByte = .ok o) : p.Delivered coinsPerByte o := by
  obtain ⟨value, valued, h⟩ := bind_ok h
  obtain ⟨same, covers, admissible, least⟩ := TxOutput.raiseToMinimum_least (mapError_ok h)
  have asked := funds_value valued
  have coin : p.requested.1 = value.coin.toNat := congrArg Prod.fst asked.symm
  refine ⟨by rw [same]; rfl, ?_, by rw [same]; rfl, by rw [same]; rfl, ?_, admissible, ?_⟩
  · rw [same, ← asked]
    rfl
  · rw [coin]
    exact UInt64.le_iff_toNat_le.1 covers
  · intro other above enough
    refine least other ?_ ?_
    · rw [coin] at above
      exact UInt64.le_iff_toNat_le.2 above
    · rwa [same] at enough

end Payment

end ConwayTx
