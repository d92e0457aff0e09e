import ConwayTx.Proofs.Builder.Outputs
import ConwayTx.Proofs.Value.Coverage

/-!
# Demands that are covered

Payments, burns and deposits take nothing below zero, so a demand lists positive quantities only
(`Draft.listed_demand_pos`). Once a supply covers it, what is left can be taken
(`coverage_matches_difference`).
-/

namespace ConwayTx

open Outcome

/-! ### Payments -/

theorem AssetUnit.funds_nonneg {u : AssetUnit} (nonneg : ¬ u.quantity < 0) : 0 ≤ u.funds := by
  have above : 0 ≤ u.quantity.toInt := Int64.le_iff_toInt_le.1 (Int64.not_lt.1 nonneg)
  unfold funds
  split
  · refine ⟨Nat.zero_le _, fun asset => ?_⟩
    show (0 : ℤ) ≤ if _ then _ else 0
    split
    · exact above
    · exact le_rfl
  · exact ⟨Nat.zero_le _, fun _ => le_rfl⟩
  · exact le_rfl

namespace Payment

theorem noNegative_value {p : Payment} {v : Value} (h : p.value = .ok v) : v.NoNegative := by
  refine foldlM_ok (fun _ v => v.NoNegative) h (Value.noNegative_ofCoin _) ?_
  intro _ u v next sound added
  refine Value.noNegative_of_funds ?_
  rw [funds_addUnit added]
  refine add_nonneg (Value.funds_nonneg sound) (AssetUnit.funds_nonneg fun below => ?_)
  unfold addUnit at added
  rw [if_pos below] at added
  cases added

theorem noNegative_output {p : Payment} {coinsPerByte : Amount} {o : TxOutput}
    (h : p.output coinsPerByte = .ok o) : o.value.NoNegative := by
  obtain ⟨value, valued, _⟩ := bind_ok h
  refine Value.noNegative_of_funds ⟨Nat.zero_le _, ?_⟩
  rw [(output_delivers h).assets, ← funds_value valued]
  exact (Value.funds_nonneg (noNegative_value valued)).2

end Payment

namespace Builder

variable {b : Builder} {d : Draft}

theorem noNegative_draft {network : Network} {params : ProtocolParams}
    {redeemers : PendingRedeemers} (h : b.draft network params redeemers = .ok d) :
    ∀ o ∈ d.body.outputs, o.value.NoNegative := by
  obtain ⟨outputs, paid, h⟩ := bind_ok h
  obtain ⟨metadataHash, _, h⟩ := bind_ok h
  obtain rfl := pure_ok h
  exact forall_mapM_ok paid fun _ _ _ one => Payment.noNegative_output one

/-- Collateral leaves the payments alone. -/
theorem noNegative_secured {network : Network} {ground : Ground} {redeemers : PendingRedeemers}
    {maxFee : Amount} {inputs : List Utxo} {body : TxBody}
    (h : b.draft network ground.params redeemers = .ok d)
    (secures : (if b.runsScripts then b.addCollateralTo d.body ground maxFee inputs
      else .ok d.body) = .ok body) : ∀ o ∈ body.outputs, o.value.NoNegative := by
  have same : body.outputs = d.body.outputs := by
    split at secures
    · rw [addCollateralTo_ok secures]
    · rw [Except.ok.inj secures]
  rw [same]
  exact noNegative_draft h

end Builder

/-! ### Demands -/

namespace Draft

variable {d : Draft} {params : ProtocolParams} {base demand : Value} {fee : Amount}

theorem noNegative_baseDemand (sound : ∀ o ∈ d.body.outputs, o.value.NoNegative)
    (h : d.baseDemand params = .ok base) : base.NoNegative := by
  refine Value.noNegative_of_funds ?_
  rw [funds_of_baseDemand h]
  have burned : 0 ≤ d.body.burned := ⟨le_rfl, fun _ => le_max_left _ _⟩
  have deposited : 0 ≤ d.body.deposited params := ⟨Nat.zero_le _, fun _ => le_rfl⟩
  refine add_nonneg (add_nonneg burned deposited) (List.sum_nonneg fun funds mem => ?_)
  obtain ⟨o, inside, rfl⟩ := List.mem_map.1 mem
  exact Value.funds_nonneg (sound o inside)

/-- With a fee on top. -/
theorem listed_demand_pos (sound : ∀ o ∈ d.body.outputs, o.value.NoNegative)
    (h : d.baseDemand params = .ok base) (sum : base.add (.ofCoin fee) = .ok demand) :
    ∀ e ∈ demand.bundle.listed, 0 < e.2.2 := by
  refine Value.listed_pos (Value.canonical_add sum) (Value.noNegative_of_funds ?_)
  rw [Value.funds_add sum]
  exact add_nonneg (Value.funds_nonneg (noNegative_baseDemand sound h))
    (Value.funds_nonneg (Value.noNegative_ofCoin fee))

end Draft

/-! ### Coverage -/

/-- What is still needed is the least that covers together with what is supplied. Positive quantities
are covered exactly where they can be subtracted. So balancing has what its supply covers: neither
burns nor payments are below zero. -/
theorem coverage_matches_difference :
    (∀ required supplied r sum : Value, r.NoNegative → supplied.add r = .ok sum →
      (sum.covers required = true ↔ r.covers (required.monus supplied) = true)) ∧
    (∀ a b : Value, (∀ e ∈ b.bundle.listed, 0 < e.2.2) →
      (a.covers b = true ↔ ∃ left, a.sub b = .ok left)) ∧
    (∀ (b : Builder) (network : Network) (ground : Builder.Ground) (redeemers : PendingRedeemers)
      (maxFee : Amount) (inputs : List Utxo) (d : Draft) (body : TxBody),
      b.draft network ground.params redeemers = .ok d →
      (if b.runsScripts then b.addCollateralTo d.body ground maxFee inputs else .ok d.body) = .ok body →
      ∀ o ∈ body.outputs, o.value.NoNegative) ∧
    ∀ (d : Draft) (params : ProtocolParams) (fee : Amount) (base demand supply : Value),
      d.baseDemand params = .ok base → base.add (.ofCoin fee) = .ok demand →
      (∀ o ∈ d.body.outputs, o.value.NoNegative) ∨ supply.NoNegative →
      supply.covers demand = true → ∃ left, supply.sub demand = .ok left := by
  refine ⟨fun _ _ _ _ => Value.covers_add_iff, fun _ _ => Value.covers_iff_exists_sub,
    fun _ _ _ _ _ _ _ _ => Builder.noNegative_secured, ?_⟩
  intro d params fee base demand supply h sum sound covered
  rcases sound with outputs | supplied
  · exact (Value.covers_iff_exists_sub (Draft.listed_demand_pos outputs h sum)).1 covered
  · exact Value.exists_sub_of_noNegative supplied covered

/-- A supply that owes one asset itself, and a demand that burns another one. -/
theorem coverage_matches_difference_owing :
    let token : AssetName := ⟨[7], by decide⟩
    let held (coin : Amount) (q : ℤ) : Value := ⟨coin, some (.ofList [(.zero, .ofList [(token, q)])])⟩
    let owing : Value := ⟨2000000, some (.ofList [(.zero, .ofList [(⟨[], by decide⟩, -1), (token, 3)])])⟩
    let address : Address := .enterprise .testnet (.key .zero)
    let b : Builder := { payments := [{ address, lovelace := 5 }], mint := held 0 (-3) }
    (held 6 5).NoNegative ∧ (held 4 (-2)).add (held 6 5) = .ok (held 10 3) ∧
      (held 6 5).covers ((held 9 3).monus (held 4 (-2))) = true ∧
      (held 10 3).covers (held 9 3) = true ∧ (∃ left, (held 10 3).sub (held 9 3) = .ok left) ∧
      ∃ d base demand, b.draft .testnet {} ∅ = .ok d ∧ d.baseDemand {} = .ok base ∧
        base.add (.ofCoin 170000) = .ok demand ∧ owing.covers demand = true ∧
        ∃ left, owing.sub demand = .ok left := by
  intro token held owing address b
  obtain ⟨least, subtractable, payments, balancing⟩ := coverage_matches_difference
  have sound : (held 6 5).NoNegative := by decide +kernel
  have sum : (held 4 (-2)).add (held 6 5) = .ok (held 10 3) := by decide +kernel
  have rest : (held 6 5).covers ((held 9 3).monus (held 4 (-2))) = true := by decide +kernel
  have covered := (least (held 9 3) _ _ _ sound sum).2 rest
  have positive : ∀ e ∈ (held 9 3).bundle.listed, 0 < e.2.2 := by decide +kernel
  obtain ⟨d, drafted⟩ := ok_of_isSome
    (show (b.draft .testnet {} ∅).toOption.isSome = true by decide +kernel)
  have demands : (b.draft .testnet {} ∅).toOption.map (fun d => d.baseDemand {}) =
      some (.ok (held 857690 3)) := by decide +kernel
  rw [drafted] at demands
  have base : d.baseDemand {} = .ok (held 857690 3) := Option.some.inj demands
  have demand : (held 857690 3).add (.ofCoin 170000) = .ok (held 1027690 3) := by decide +kernel
  have enough : owing.covers (held 1027690 3) = true := by decide +kernel
  have outputs := payments b .testnet ⟨{}, address, []⟩ ∅ 0 [] d d.body drafted rfl
  exact ⟨sound, sum, rest, covered, (subtractable _ _ positive).1 covered, d, _, _, drafted, base,
    demand, enough, balancing d {} 170000 _ _ owing base demand (.inl outputs) enough⟩

end ConwayTx
