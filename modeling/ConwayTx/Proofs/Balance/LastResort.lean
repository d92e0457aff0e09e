import ConwayTx.Proofs.Balance.Dust

/-!
# The last resort

What is charged beyond the fee of the accepted round (`Accepts`) is dust: nothing else is paid out
as change, and neither by itself nor with all lovelace in ADA-only outputs that are still spare does
it reach the minimum of an output (`balance_dust`). A reference counts once among those; where a pool
lists different outputs under one reference, the others are lost (`balance_dust_repeated`).
-/

namespace ConwayTx.Balancer

open Outcome

variable {b : Balancer} {given : List Utxo}

/-- Lovelace that is charged for want of an output that could hold it. -/
structure Burns (b : Balancer) (draft : Draft) (balanced : Balanced) (dust minimum : Amount) :
    Prop where
  above : 0 < dust
  outputs : balanced.tx.body.outputs = draft.body.outputs
  measured : (Change.output b.changeAddress (.ofCoin dust)).minCoin b.params.coinsPerUtxoByte =
    .ok minimum
  below : dust < minimum
  candidates : dust.toNat + Amount.total
    ((adaCandidates (withoutRefs b.pool balanced.inputs)).map Utxo.coin) < minimum.toNat
  /-- Where equal references mean equal values, no spare output is left out. -/
  distinct : Utxo.Consistent b.pool → dust.toNat + Amount.total ((Utxo.distinct
    ((withoutRefs b.pool balanced.inputs).filter Utxo.isAdaOnly)).map Utxo.coin) < minimum.toNat

theorem total_adaCandidates {spare : List Utxo} (repeats : Utxo.Consistent spare) :
    Amount.total ((adaCandidates spare).map Utxo.coin) =
      Amount.total ((Utxo.distinct (spare.filter Utxo.isAdaOnly)).map Utxo.coin) := by
  have ada : Utxo.Consistent (spare.filter Utxo.isAdaOnly) :=
    repeats.subset List.filter_sublist.subset
  rw [← Utxo.coin_held, ← Utxo.coin_held, adaCandidates, Selection.held_ranked ada]

/-- Dust on top of the fee of a round is burnt. -/
theorem Ran.burns {draft : Draft} {terms : Terms} {fee : Amount} {demand : Value} {change : Change}
    {r : Round} (ran : Ran b terms fee demand change r) (of : Terms.Of b draft terms)
    (spare : r.spare = withoutRefs b.pool r.inputs)
    (resort : LastResort b (adaCandidates r.spare) change) (dust : change.dust ≠ 0) :
    ∃ minimum, Burns b draft ⟨r.tx, r.inputs⟩ change.dust minimum := by
  obtain ⟨none, minimum, measured, short⟩ := resort dust
  rw [filter_adaCandidates, spare] at short
  obtain ⟨body, _⟩ := Draft.assemble_ok ran.assembled
  refine ⟨minimum, UInt64.pos_iff_ne_zero.2 dust, ?_, measured, ?_, short, fun repeats => ?_⟩
  · show r.tx.body.outputs = _
    rw [body, none, of.same]
    exact List.append_nil _
  · rw [UInt64.lt_iff_toNat_lt]
    omega
  · rwa [total_adaCandidates (repeats.subset (withoutRefs_sublist _ _).subset)] at short

/-- A balanced transaction charges the fee of the accepted round, and more only where the rest is
burnt. -/
theorem balance_dust {draft : Draft} {balanced : Balanced}
    (h : b.balance draft given = .ok balanced) :
    ∃ terms first fee r, Terms.Of b draft terms ∧ b.firstFee terms given = .ok first ∧
      Accepts b terms fee r b.maxFeeRounds.toNat first given (withoutRefs b.pool given) ∧
      balanced = ⟨r.tx, r.inputs⟩ ∧
      (balanced.tx.body.fee = fee ∨ ∃ dust minimum,
        balanced.tx.body.fee.toNat = fee.toNat + dust.toNat ∧ Burns b draft balanced dust minimum) := by
  obtain ⟨terms, first, fee, r, of, firstFee, accepts, rfl⟩ := balance_ok_iff.1 h
  refine ⟨terms, first, fee, r, of, firstFee, accepts, rfl, ?_⟩
  obtain ⟨_, _, _, round⟩ := accepts.round
  obtain ⟨demand, funded, _, found, _, left, ran⟩ := ran_of_round round
  have resort := lastResort_of_fund found
  rw [← left] at resort
  have charge := ran.charge
  obtain ⟨body, _⟩ := Draft.assemble_ok ran.assembled
  have charged : r.tx.body.fee.toNat = fee.toNat + funded.change.dust.toNat := by
    rw [body]
    show (Amount.clamp _).toNat = _
    rw [Amount.toNat_clamp]
    omega
  by_cases none : funded.change.dust = 0
  · refine .inl (UInt64.toNat_inj.1 ?_)
    rw [charged, none]
    exact Nat.add_zero _
  · obtain ⟨minimum, burns⟩ := ran.burns of (accepts.spare_eq rfl) resort none
    exact .inr ⟨_, minimum, charged, burns⟩

/-- Nothing spare could lift what is left of this input. -/
theorem balance_dust_fixed :
    let address : Address := .enterprise .testnet (.key .zero)
    let entry (index : UInt32) (coin : Amount) : Utxo :=
      ⟨⟨.zero, index⟩, { address, value := .ofCoin coin }⟩
    let draft : Draft := { body := { outputs := [{ address, value := .ofCoin 2000000 }] } }
    let b : Balancer := { params := {}, maxFeeRounds := 3, pool := [entry 1 100000],
                          changeAddress := address, fixedFee := some 200000, feePadding := 0 }
    ∃ balanced, b.balance draft [entry 0 2900000] = .ok balanced ∧
      balanced.tx.body.fee = 900000 ∧ ∃ minimum, Burns b draft balanced 700000 minimum := by
  intro address entry draft b
  have run : (b.balance draft [entry 0 2900000]).toOption.map (·.tx.body.fee) = some 900000 := by
    decide +kernel
  obtain ⟨balanced, done, fee⟩ := Option.map_eq_some_iff.1 run
  replace done : b.balance draft [entry 0 2900000] = .ok balanced := ok_of_toOption done
  refine ⟨balanced, done, fee, ?_⟩
  obtain ⟨terms, first, charged, r, _, firstFee, accepts, _, outcome⟩ := balance_dust done
  cases firstFee
  obtain rfl := accepts.charged_of_fixed rfl
  rw [fee] at outcome
  rcases outcome with same | ⟨dust, minimum, sum, burns⟩
  · cases same
  · obtain rfl : dust = 700000 := by
      have total : (900000 : Amount).toNat = (200000 : Amount).toNat + dust.toNat := sum
      apply UInt64.toNat_inj.1
      have large : (900000 : Amount).toNat = 900000 := rfl
      have small : (200000 : Amount).toNat = 200000 := rfl
      have rest : (700000 : Amount).toNat = 700000 := rfl
      omega
    exact ⟨minimum, burns⟩

/-- Of different outputs with one reference only the larger counts, though both could lift the dust. -/
theorem balance_dust_repeated :
    let address : Address := .enterprise .testnet (.key .zero)
    let entry (index : UInt32) (coin : Amount) : Utxo :=
      ⟨⟨.zero, index⟩, { address, value := .ofCoin coin }⟩
    let draft : Draft := { body := { outputs := [{ address, value := .ofCoin 2000000 }] } }
    let b : Balancer := { params := {}, maxFeeRounds := 3, pool := [entry 1 100000, entry 1 90000],
                          changeAddress := address, fixedFee := some 200000, feePadding := 0 }
    ∃ balanced minimum, b.balance draft [entry 0 2900000] = .ok balanced ∧
      balanced.tx.body.fee.toNat = 200000 + 700000 ∧
      (Change.output b.changeAddress (.ofCoin 700000)).minCoin b.params.coinsPerUtxoByte =
        .ok minimum ∧
      minimum.toNat ≤ 700000 + Amount.total
        (((withoutRefs b.pool balanced.inputs).filter Utxo.isAdaOnly).map Utxo.coin) := by
  intro address entry draft b
  let terms : Terms := ⟨draft, 0, .ofCoin 0, .ofCoin 2000000⟩
  have of : Terms.Of b draft terms := ⟨rfl, ok_of_toOption (by decide +kernel),
    ok_of_toOption (by decide +kernel), ok_of_toOption (by decide +kernel)⟩
  have measured : (Change.output b.changeAddress (.ofCoin 700000)).minCoin b.params.coinsPerUtxoByte =
      .ok 857690 := ok_of_toOption (by decide +kernel)
  have spare : withoutRefs b.pool [entry 0 2900000] = b.pool := rfl
  have settled : fundStep b (.ofCoin 0) (.ofCoin 2200000) [entry 0 2900000] b.pool =
      .ok (.settled ⟨[], 700000⟩) := by
    have listed : adaCandidates b.pool = [entry 1 100000] := by
      have sorted : ((b.pool.filter Utxo.isAdaOnly).mergeSort fun u v => (Selection.rank u v).isLE) =
          b.pool := List.mergeSort_of_pairwise (by decide +kernel)
      rw [adaCandidates, Selection.ranked, sorted]
      simp [b, entry, Selection.dropRepeats]
    refine fundStep_settled_iff.2 ⟨⟨List.cons_ne_nil _ _, .ofCoin 2900000, .ofCoin 700000, ?_, ?_, ?_⟩,
      fun _ => ⟨857690, measured, ?_⟩⟩
    · exact ok_of_toOption (by decide +kernel)
    · exact ok_of_toOption (by decide +kernel)
    · rw [Change.plan, if_neg (by decide +kernel), Change.planCoin, if_neg (by decide)]
      exact (bind_of_ok measured).trans (if_pos (by decide))
    · rw [listed]
      decide +kernel
  have found : b.fund terms.extraSupply (.ofCoin 2200000) [entry 0 2900000] b.pool = _ :=
    fund_of_settled settled
  have demanded : terms.baseDemand.add (.ofCoin 200000) = .ok (.ofCoin 2200000) :=
    ok_of_toOption (by decide +kernel)
  have sized : ((draft.assemble [entry 0 2900000] [] 900000 b.params.costModels).toOption.bind
      fun tx => (b.estimate terms tx).toOption.map fun e => (tx.body.fee, e.size)) =
        some (900000, 193) := by decide +kernel
  obtain ⟨tx, assembled, sized⟩ := Option.bind_eq_some_iff.1 sized
  obtain ⟨e, estimated, both⟩ := Option.map_eq_some_iff.1 sized
  obtain ⟨fee, size⟩ := Prod.mk.inj both
  have charge : Amount.clamp ((200000 : Amount).toNat + (700000 : Amount).toNat) = 900000 := by
    decide +kernel
  have round := round_of_fund demanded found (charge.symm ▸ ok_of_toOption assembled)
    (ok_of_toOption estimated)
  have accepted : Accepted b 200000 ⟨tx, e, [entry 0 2900000], b.pool⟩ := by
    refine ⟨.inl rfl, ?_⟩
    rw [size]
    decide
  have run := balance_ok_iff.2 ⟨terms, 200000, 200000, _, of, rfl, .last round accepted, rfl⟩
  refine ⟨_, 857690, run, ?_, measured, ?_⟩
  · show tx.body.fee.toNat = _
    rw [fee]
    rfl
  · show _ ≤ 700000 + Amount.total (((withoutRefs b.pool [entry 0 2900000]).filter _).map _)
    decide +kernel

end ConwayTx.Balancer
