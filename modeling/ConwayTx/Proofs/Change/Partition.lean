import ConwayTx.Proofs.Change
import ConwayTx.Proofs.Value.Wire

/-!
# Assets of the change

Assets come to the bundles in map order, so a bundle that another one joins ends with it
(`positive_addAsset`), and the bundles one after the other are the assets of the change
(`bundleAssets_groups`). A bundle is closed only by an asset that would have made it too large. The
lovelace either suffices for the minimums of all outputs, or the plan names what they lack
(`plan_partitions`).
-/

namespace ConwayTx

open Outcome

/-! ### Assets in map order -/

namespace MultiAsset

/-- The assets of entries, without their quantities. -/
def assetsOf (entries : List (PolicyId × AssetName × Int)) : List (PolicyId × AssetName) :=
  entries.map fun e => (e.1, e.2.1)

theorem Before.irrefl (a : PolicyId × AssetName) : ¬ Before a a := fun h => h.asymm h

theorem eq_of_increasing {l₁ l₂ : List (PolicyId × AssetName × Int)}
    (h₁ : (assetsOf l₁).Pairwise Before) (h₂ : (assetsOf l₂).Pairwise Before)
    (same : ∀ e, e ∈ l₁ ↔ e ∈ l₂) : l₁ = l₂ := by
  have : Std.Asymm fun a b : PolicyId × AssetName × Int => Before (a.1, a.2.1) (b.1, b.2.1) :=
    ⟨fun _ _ => Before.asymm⟩
  exact (List.pairwise_map.1 h₁).eq_of_mem_iff (List.pairwise_map.1 h₂) same

end MultiAsset

namespace Value

variable {v : Value} {policy : PolicyId} {name : AssetName} {q : Int}

theorem noNegative_addAsset (sound : v.NoNegative) (above : 0 < q) :
    (v.addAsset policy name q).NoNegative := by
  intro p n
  have := sound p n
  rw [quantity_addAsset]
  split <;> omega

/-- An asset behind all others comes last. -/
theorem positive_addAsset (sound : v.NoNegative) (above : 0 < q)
    (last : ∀ a ∈ MultiAsset.assetsOf v.positive, MultiAsset.Before a (policy, name)) :
    (v.addAsset policy name q).positive = v.positive ++ [(policy, name, q)] := by
  have fresh : v.quantity policy name = 0 := by
    by_contra held
    have listed : (policy, name, v.quantity policy name) ∈ v.positive :=
      mem_positive.2 ⟨lt_of_le_of_ne (sound _ _) (Ne.symm held), rfl⟩
    exact MultiAsset.Before.irrefl _ (last _ (List.mem_map.2 ⟨_, listed, rfl⟩))
  refine MultiAsset.eq_of_increasing (MultiAsset.positive_increasing _) ?_ fun (p, n, r) => ?_
  · rw [MultiAsset.assetsOf, List.map_append, List.pairwise_append]
    refine ⟨MultiAsset.positive_increasing _, List.pairwise_singleton _ _, fun a mem b single => ?_⟩
    obtain rfl := List.mem_singleton.1 single
    exact last a mem
  · rw [List.mem_append, mem_positive, mem_positive, quantity_addAsset, List.mem_singleton]
    by_cases same : p = policy ∧ n = name
    · obtain ⟨rfl, rfl⟩ := same
      rw [if_pos ⟨rfl, rfl⟩, fresh]
      simp only [Prod.mk.injEq, true_and]
      omega
    · rw [if_neg same, add_zero]
      simp only [Prod.mk.injEq]
      tauto

theorem hasAssets_iff_positive : v.hasAssets = true ↔ v.positive ≠ [] := by
  simp [hasAssets]

end Value

namespace Change

/-! ### Bundles -/

variable {limit : Nat} {coin : Amount} {current : Value} {policy : PolicyId} {name : AssetName}
  {q : Int}

/-- A bundle that holds assets, with the whole coin in place; only a single asset may be too
large. -/
structure Group (limit : Nat) (coin : Amount) (v : Value) : Prop where
  coin : v.coin = coin
  noNegative : v.NoNegative
  hasAssets : v.hasAssets = true
  fits : 2 ≤ v.positive.length → Fits limit v

/-- The first asset of the next bundle would have made this one too large. -/
def Closed (limit : Nat) (v next : Value) : Prop :=
  ∃ policy name q more, next.positive = (policy, name, q) :: more ∧
    Exceeds limit (v.addAsset policy name q)

theorem positive_single (coin : Amount) (above : 0 < q) :
    ((Value.ofCoin coin).addAsset policy name q).positive = [(policy, name, q)] :=
  Value.positive_addAsset (Value.noNegative_ofCoin coin) above fun _ mem => by cases mem

theorem group_single (limit : Nat) (coin : Amount) (above : 0 < q) :
    Group limit coin ((Value.ofCoin coin).addAsset policy name q) := by
  have single : ((Value.ofCoin coin).addAsset policy name q).positive = [(policy, name, q)] :=
    positive_single coin above
  refine ⟨Value.coin_addAsset _ _ _ _,
    Value.noNegative_addAsset (Value.noNegative_ofCoin coin) above, ?_, ?_⟩
  · rw [Value.hasAssets_iff_positive, single]
    exact List.cons_ne_nil _ _
  · intro several
    rw [single, List.length_singleton] at several
    omega

theorem Group.addAsset (group : Group limit coin current) (above : 0 < q)
    (fits : Fits limit (current.addAsset policy name q)) :
    Group limit coin (current.addAsset policy name q) := by
  refine ⟨(Value.coin_addAsset _ _ _ _).trans group.coin,
    Value.noNegative_addAsset group.noNegative above, ?_, fun _ => fits⟩
  obtain ⟨p, n, held⟩ := Value.hasAssets_iff.1 group.hasAssets
  refine Value.hasAssets_iff.2 ⟨p, n, ?_⟩
  rw [Value.quantity_addAsset]
  split <;> omega

/-- The current bundle takes assets until one of them is too much, and the next goes on from
there. -/
theorem bundleAssets_groups {assets : List (PolicyId × AssetName × Int)} {filled : List Value}
    (group : Group limit coin current) (above : ∀ e ∈ assets, 0 < e.2.2)
    (ordered : (MultiAsset.assetsOf (current.positive ++ assets)).Pairwise MultiAsset.Before)
    (h : bundleAssets limit coin current assets = .ok filled) :
    filled.flatMap Value.positive = current.positive ++ assets ∧
      (∀ v ∈ filled, Group limit coin v) ∧ filled.IsChain (Closed limit) ∧
      ∃ first more taken, filled = first :: more ∧ first.positive = current.positive ++ taken := by
  induction assets generalizing current filled with
  | nil =>
    cases h
    refine ⟨by simp, List.forall_mem_singleton.2 group, List.isChain_singleton _, ?_⟩
    exact ⟨current, [], [], rfl, (List.append_nil _).symm⟩
  | cons asset assets ih =>
    obtain ⟨policy, name, q⟩ := asset
    obtain ⟨positive, above⟩ := List.forall_mem_cons.1 above
    rcases bundleAssets_cons h with ⟨fits, run⟩ | ⟨_, exceeds, others, rfl, run⟩
    · have last : ∀ a ∈ MultiAsset.assetsOf current.positive,
          MultiAsset.Before a (policy, name) := by
        rw [MultiAsset.assetsOf, List.map_append, List.pairwise_append] at ordered
        exact fun a mem => ordered.2.2 a mem _ (.head _)
      have grown : (current.addAsset policy name q).positive =
          current.positive ++ [(policy, name, q)] :=
        Value.positive_addAsset group.noNegative positive last
      have result := ih (group.addAsset positive (fits group.hasAssets)) above
        (by rwa [grown, List.append_assoc]) run
      rw [grown, List.append_assoc] at result
      obtain ⟨whole, groups, chain, first, more, taken, rfl, head⟩ := result
      refine ⟨whole, groups, chain, first, more, (policy, name, q) :: taken, rfl, ?_⟩
      rw [head, List.append_assoc]
      rfl
    · have single : ((Value.ofCoin coin).addAsset policy name q).positive = [(policy, name, q)] :=
        positive_single coin positive
      have later : (MultiAsset.assetsOf ([(policy, name, q)] ++ assets)).Pairwise
          MultiAsset.Before :=
        ordered.sublist ((List.sublist_append_right _ _).map _)
      have result := ih (group_single limit coin positive) above (by rwa [single]) run
      rw [single] at result
      obtain ⟨whole, groups, chain, first, more, taken, rfl, head⟩ := result
      refine ⟨?_, List.forall_mem_cons.2 ⟨group, groups⟩, ?_, current, _, [], rfl,
        (List.append_nil _).symm⟩
      · rw [List.flatMap_cons, whole]
        rfl
      · exact List.isChain_cons_cons.2 ⟨⟨policy, name, q, taken, head, exceeds⟩, chain⟩

/-- Each asset of the change is whole in one of the bundles, in map order, and each bundle holds as
many as fit. -/
structure Partitions (limit : Nat) (change : Value) (groups : List Value) : Prop where
  whole : groups.flatMap Value.positive = change.positive
  each : ∀ v ∈ groups, Group limit change.coin v
  closed : groups.IsChain (Closed limit)

theorem partitions_of_bundles {maxValueSize : UInt32} {change : Value} {parts : List Value}
    (has : change.hasAssets = true) (h : bundles maxValueSize change = .ok parts) :
    ∃ groups, parts = groups.map Value.assetsOnly ∧
      Partitions maxValueSize.toNat change groups := by
  obtain ⟨groups, run, h⟩ := bind_ok h
  refine ⟨groups, (pure_ok h).symm, ?_⟩
  cases listed : change.positive with
  | nil => exact absurd listed (Value.hasAssets_iff_positive.1 has)
  | cons asset assets =>
    obtain ⟨policy, name, q⟩ := asset
    have above : ∀ e ∈ (policy, name, q) :: assets, 0 < e.2.2 := fun (p, n, r) mem =>
      (Value.mem_positive.1 (listed ▸ mem)).1
    have ordered := MultiAsset.positive_increasing change.bundle
    rw [show change.bundle.positive = change.positive from rfl, listed] at ordered
    rw [listed] at run
    obtain ⟨positive, above⟩ := List.forall_mem_cons.1 above
    have single : ((Value.ofCoin change.coin).addAsset policy name q).positive =
        [(policy, name, q)] := positive_single change.coin positive
    rcases bundleAssets_cons run with ⟨_, run⟩ | ⟨full, _⟩
    · have result := bundleAssets_groups (group_single maxValueSize.toNat change.coin positive)
        above (by rw [single]; exact ordered) run
      obtain ⟨whole, all, chain, _⟩ := result
      rw [single] at whole
      exact ⟨whole.trans listed.symm, all, chain⟩
    · cases full

/-! ### Outputs -/

theorem fits_of_coin_le {o : TxOutput} {c : Amount} (le : o.coin ≤ c)
    (fits : Fits limit (o.withCoin c).value) : Fits limit o.value := by
  obtain ⟨size, sized, bound⟩ := fits
  obtain ⟨item, written, sized⟩ := bind_ok sized
  obtain ⟨rest, weighs⟩ := Value.length_withCoin written
  obtain ⟨large, writtenLarge, lengthLarge⟩ := weighs c
  obtain ⟨small, writtenSmall, lengthSmall⟩ := weighs o.coin
  cases written.symm.trans writtenLarge
  have heads := Cbor.headLength_mono (UInt64.le_iff_toNat_le.1 le)
  have same : item.length = size := pure_ok sized
  refine ⟨small.length, ?_, by omega⟩
  show o.value.toCbor >>= _ = _
  exact bind_of_ok writtenSmall

/-- Outputs that lack nothing hold bundles that fit, whichever coin they were measured with. -/
theorem fits_of_paid {change : Value} {outputs : List TxOutput}
    (partitions : Partitions limit change
      (outputs.map fun o => (o.withCoin change.coin).value))
    (paid : (TxOutput.paid outputs).1 = change.coin.toNat) :
    ∀ o ∈ outputs, 2 ≤ o.value.positive.length → Fits limit o.value := by
  intro o mem several
  have group := partitions.each _ (List.mem_map.2 ⟨o, mem, rfl⟩)
  refine fits_of_coin_le (UInt64.le_iff_toNat_le.2 ?_) (group.fits several)
  rw [← paid, TxOutput.coin_paid]
  exact Amount.le_total (List.mem_map.2 ⟨o, mem, rfl⟩)

theorem Placed.partitions {address : Address} {coinsPerByte remaining required : Amount}
    {parts groups : List Value} {before : List TxOutput} {last : TxOutput} {change : Value}
    (placed : Placed address coinsPerByte remaining parts before last required)
    (same : parts = groups.map Value.assetsOnly) (partitions : Partitions limit change groups) :
    Partitions limit change
      ((before ++ [last]).map fun o => (o.withCoin change.coin).value) := by
  have values : ((before ++ [last]).map fun o => (o.withCoin change.coin).value) = groups := by
    have built := congrArg (List.map TxOutput.value) (placed.bundles change.coin)
    rw [List.map_map, List.map_map, same, List.map_map] at built
    refine built.trans ((List.map_congr_left fun v mem => ?_).trans (List.map_id groups))
    exact Value.ext (partitions.each v mem).coin.symm rfl
  rwa [values]

/-- Change with assets is partitioned among outputs of the address. Either the lovelace suffices for
their minimums and is all paid out, or the plan says how much it is short of them. -/
theorem plan_partitions {params : ProtocolParams} {address : Address} {change : Value} {p : Plan}
    (has : change.hasAssets = true) (sound : change.NoNegative)
    (h : plan params address change = .ok p) :
    ∃ before last minima,
      (∀ o ∈ before ++ [last], o.address = address ∧ o.datum = none ∧ o.script = none) ∧
      Partitions params.maxValueSize.toNat change
        ((before ++ [last]).map fun o => (o.withCoin change.coin).value) ∧
      (∀ o ∈ before, (o.withCoin 0).LeastRaise params.coinsPerUtxoByte o) ∧
      last.coin.toNat = change.coin.toNat - Amount.total (before.map TxOutput.coin) ∧
      (before ++ [last]).mapM (TxOutput.minCoin params.coinsPerUtxoByte) = .ok minima ∧
      ((Amount.total minima ≤ change.coin.toNat ∧ p = .payable ⟨before ++ [last], 0⟩ ∧
          TxOutput.paid (before ++ [last]) = change.funds ∧
          ∀ o ∈ before ++ [last], 2 ≤ o.value.positive.length →
            Fits params.maxValueSize.toNat o.value) ∨
        (change.coin.toNat < Amount.total minima ∧ ∃ shortfall, p = .short shortfall ∧
          0 < shortfall ∧
          shortfall = Amount.clamp (Amount.total minima - change.coin.toNat))) := by
  obtain ⟨parts, before, last, required, split, placed, decided⟩ := plan_cases has h
  obtain ⟨groups, same, groupwise⟩ := partitions_of_bundles has split
  have partitions := placed.partitions same groupwise
  have total : Amount.total (before.map TxOutput.coin ++ [required]) =
      Amount.total (before.map TxOutput.coin) + required.toNat := Amount.total_append _ _
  refine ⟨before, last, _, placed.plain, partitions, placed.least, placed.rest, placed.minima, ?_⟩
  rw [total]
  rcases decided with ⟨enough, rfl⟩ | ⟨more, rfl⟩
  · have paid : TxOutput.paid (before ++ [last]) = change.funds := by
      have funds := funds_of_plan sound h
      rwa [show Funds.ofCoin (0 : Amount).toNat = 0 from rfl, add_zero] at funds
    exact .inl ⟨enough, rfl, paid, fits_of_paid partitions (congrArg Prod.fst paid)⟩
  · exact .inr ⟨more, _, rfl, short_pos h, rfl⟩

/-- Two assets that do not fit together, and the lovelace for both. -/
theorem plan_partitions_apart :
    let address : Address := .enterprise .testnet (.key .zero)
    let params : ProtocolParams := { maxValueSize := 50 }
    let change := ((Value.ofCoin 5000000).addAsset .zero ⟨[1], by decide⟩ 7).addAsset .zero
      ⟨[2, 3, 4, 5, 6, 7, 8, 9, 10], by decide⟩ 9
    ∃ first second, plan params address change = .ok (.payable ⟨[first, second], 0⟩) ∧
      first.coin.toNat + second.coin.toNat = 5000000 ∧
      first.value.positive ++ second.value.positive = change.positive := by
  intro address params change
  have sound : change.NoNegative := Value.noNegative_addAsset
    (Value.noNegative_addAsset (Value.noNegative_ofCoin _) (by decide)) (by decide)
  have run : (plan params address change).toOption.bind (fun
      | .payable paid => some paid.outputs.length
      | .short _ => none) = some 2 := by
    decide +kernel
  obtain ⟨p, done, two⟩ := Option.bind_eq_some_iff.1 run
  replace done : plan params address change = .ok p := ok_of_toOption done
  obtain ⟨before, last, minima, _, partitions, _, _, _, ⟨_, rfl, paid, _⟩ | ⟨_, _, rfl, _⟩⟩ :=
    plan_partitions (by decide +kernel) sound done
  · have count : (before ++ [last]).length = 2 := Option.some.inj two
    rw [List.length_append, List.length_singleton] at count
    obtain ⟨first, rfl⟩ := List.length_eq_one_iff.1 (Nat.succ.inj count)
    have coins : first.coin.toNat + (last.coin.toNat + 0) = change.coin.toNat :=
      congrArg Prod.fst paid
    have whole : first.value.positive ++ (last.value.positive ++ []) = change.positive :=
      partitions.whole
    rw [List.append_nil] at whole
    exact ⟨first, last, done, coins, whole⟩
  · cases two

end Change

end ConwayTx
