import ConwayTx.Proofs.Balance.Conservation
import ConwayTx.Proofs.Balance.Order
import ConwayTx.Proofs.Selection.Fewest

/-!
# Dust

Lovelace that is too little for an output goes on top of the fee as a last resort: only where the
ADA-only outputs that are still spare could not lift it to an output (`lastResort_of_fund`). A fixed
fee goes through one round, so this dust is all that can come on top of it (`balance_fixed`).
-/

namespace ConwayTx

open Outcome

/-! ### Picks of lovelace -/

namespace Selection

theorem assetsCommitted_ofCoin (needed : Amount) : AssetsCommitted (.ofCoin needed) (.ofCoin 0) :=
  fun _ _ above => absurd above (lt_irrefl _)

theorem selectFrom_ofCoin (l : List Utxo) (needed : Amount) :
    (selectFrom l (.ofCoin needed) (.ofCoin 0) = .ok (takeCoin needed.toNat l).1 ∧
      (takeCoin needed.toNat l).2 = 0) ∨
    ((∃ e, selectFrom l (.ofCoin needed) (.ofCoin 0) = .error e) ∧
      (takeCoin needed.toNat l).2 ≠ 0) :=
  selectFrom_of_assetsCommitted (assetsCommitted_ofCoin needed) l

/-- What is too little in all is reported as such. -/
theorem selectFrom_short {l : List Utxo} {needed : Amount}
    (short : (Utxo.held l).1 < needed.toNat) : ∃ amount,
      selectFrom l (.ofCoin needed) (.ofCoin 0) =
        .error (.refused (.insufficientFunds needed amount)) := by
  have monus : ((Value.ofCoin needed).monus (.ofCoin 0)).coin.toNat = needed.toNat :=
    Value.coin_monus _ _
  have lacking : (takeCoin needed.toNat l).2 ≠ 0 := by
    have left := takeCoin_left needed.toNat l
    have taken := (prefix_takeCoin needed.toNat l).sublist
    have part : (Utxo.held (takeCoin needed.toNat l).1).1 ≤ (Utxo.held l).1 := by
      rw [coin_held_eq_sum, coin_held_eq_sum]
      exact (taken.map _).sum_le_sum (fun _ _ => Nat.zero_le _)
    omega
  have small := Amount.toNat_le_largest needed
  obtain ⟨picked, pickedOk, _⟩ := @expectTotal_totalCoin? [] (Nat.zero_le _)
  obtain ⟨unpicked, unpickedOk, _⟩ := @expectTotal_totalCoin? l (by omega)
  rw [selectFrom_eq_coverCoin (assetsCommitted_ofCoin needed)]
  unfold coverCoin available
  dsimp only
  rw [monus, if_neg lacking, pickedOk, unpickedOk]
  exact ⟨_, rfl⟩

theorem nonempty_takeCoin {needed : Nat} {l : List Utxo} (above : 0 < needed)
    (enough : (takeCoin needed l).2 = 0) : (takeCoin needed l).1 ≠ [] := by
  intro none
  have left := takeCoin_left needed l
  rw [none, enough] at left
  exact absurd left above.ne

theorem held_lt_of_takeCoin {needed : Nat} {l : List Utxo} (left : (takeCoin needed l).2 ≠ 0) :
    (Utxo.held l).1 < needed := by
  have rest := takeCoin_left needed l
  rw [takeCoin_exhausts left] at rest
  omega

theorem held_ranked_of_nodup {pool : List Utxo} (distinct : (pool.map Utxo.ref).Nodup) :
    Utxo.held (ranked pool) = Utxo.held pool := by
  refine Utxo.held_eq_of_refs (nodup_refs_ranked (Utxo.consistent_of_nodup distinct)) distinct
    (fun u mem => ⟨u, subset_ranked pool mem, rfl⟩) (fun v mem => exists_mem_ranked mem) ?_
  intro u mem v mem' same
  rw [List.inj_on_of_nodup_map distinct (subset_ranked pool mem) mem' same]

end Selection

/-! ### Plans -/

namespace Change

/-- Dust is lovelace alone, and below the minimum of its output. -/
theorem dust_below {params : ProtocolParams} {address : Address} {left : Value} {change : Change}
    (h : plan params address left = .ok (.payable change)) (dust : change.dust ≠ 0) :
    change.outputs = [] ∧
      ∃ minimum, (output address (.ofCoin change.dust)).minCoin params.coinsPerUtxoByte =
        .ok minimum ∧ change.dust.toNat < minimum.toNat := by
  by_cases has : left.hasAssets = true
  · obtain ⟨_, _, _, _, _, _, ⟨_, same⟩ | ⟨_, same⟩⟩ := plan_cases has h <;> cases same
    exact absurd rfl dust
  · rw [plan_of_not_hasAssets params address has] at h
    unfold planCoin at h
    split at h
    · cases h
      exact absurd rfl dust
    · obtain ⟨required, minimum, h⟩ := bind_ok h
      split at h
      · rename_i below
        cases h
        exact ⟨rfl, required, minimum, UInt64.lt_iff_toNat_lt.1 below⟩
      · cases h
        exact absurd rfl dust

end Change

namespace Balancer

variable {b : Balancer} {extraSupply demand : Value} {inputs spare : List Utxo}

/-! ### Funding -/

/-- Together with all lovelace in ADA-only spare outputs, this is below the minimum of an output that
has nothing else. -/
def Unliftable (b : Balancer) (spare : List Utxo) (dust : Amount) : Prop :=
  ∃ minimum, (Change.output b.changeAddress (.ofCoin dust)).minCoin b.params.coinsPerUtxoByte =
      .ok minimum ∧
    dust.toNat + Amount.total ((spare.filter Utxo.isAdaOnly).map Utxo.coin) < minimum.toNat

/-- What is not paid out is dust without other change, and nothing spare can lift it. -/
def LastResort (b : Balancer) (spare : List Utxo) (change : Change) : Prop :=
  change.dust ≠ 0 → change.outputs = [] ∧ Unliftable b spare change.dust

/-- The ADA-only outputs that lovelace is looked for in. -/
def adaCandidates (spare : List Utxo) : List Utxo := Selection.ranked (spare.filter Utxo.isAdaOnly)

theorem filter_adaCandidates (spare : List Utxo) :
    (adaCandidates spare).filter Utxo.isAdaOnly = adaCandidates spare :=
  List.filter_eq_self.2 fun _ mem => (List.mem_filter.1 (Selection.subset_ranked _ mem)).2

theorem unliftable_of_takeDust {change : Change} {left : Value}
    (plan : Change.plan b.params b.changeAddress left = .ok (.payable change))
    (dust : change.dust ≠ 0) (h : takeDust b spare change = .ok (.settled change)) :
    Unliftable b (adaCandidates spare) change.dust := by
  obtain ⟨_, minimum, measured, below⟩ := Change.dust_below plan dust
  have shortfall : (Amount.clamp (minimum.toNat - change.dust.toNat)).toNat =
      minimum.toNat - change.dust.toNat := by
    have := Amount.toNat_le_largest minimum
    rw [Amount.toNat_clamp]
    omega
  unfold takeDust at h
  dsimp only at h
  rw [measured] at h
  dsimp only at h
  rcases Selection.selectFrom_ofCoin (adaCandidates spare)
    (Amount.clamp (minimum.toNat - change.dust.toNat)) with ⟨found, enough⟩ | ⟨⟨e, failed⟩, left⟩
  · replace h := (takeFor_of_ok found).symm.trans h
    unfold takeOr at h
    rw [dif_neg (Selection.nonempty_takeCoin (by omega) enough)] at h
    cases h
  · have short := Selection.held_lt_of_takeCoin left
    rw [Utxo.coin_held, shortfall] at short
    exact ⟨minimum, measured, by rw [filter_adaCandidates]; omega⟩

/-- Where nothing spare can lift it, dust stays as it is. -/
theorem takeDust_of_unliftable {change : Change}
    (unliftable : Unliftable b (adaCandidates spare) change.dust) :
    takeDust b spare change = .ok (.settled change) := by
  obtain ⟨minimum, measured, below⟩ := unliftable
  rw [filter_adaCandidates, ← Utxo.coin_held] at below
  have short : (Utxo.held (adaCandidates spare)).1 <
      (Amount.clamp (minimum.toNat - change.dust.toNat)).toNat := by
    have := Amount.toNat_le_largest minimum
    rw [Amount.toNat_clamp]
    omega
  obtain ⟨amount, failed⟩ := Selection.selectFrom_short short
  unfold takeDust
  dsimp only
  rw [measured]
  exact takeFor_of_error failed

/-- Inputs settle with a plan whose dust, if there is any, cannot be lifted. -/
theorem fundStep_settled_iff {change : Change} :
    fundStep b extraSupply demand inputs spare = .ok (.settled change) ↔
      Settles b extraSupply demand inputs change ∧
        (change.dust ≠ 0 → Unliftable b (adaCandidates spare) change.dust) := by
  constructor
  · intro h
    obtain ⟨settles, whole | took⟩ := reason_of_settled h
    · exact ⟨settles, fun dust => absurd whole dust⟩
    · refine ⟨settles, fun dust => ?_⟩
      obtain ⟨_, _, _, _, _, plan⟩ := settles
      exact unliftable_of_takeDust plan dust took
  · rintro ⟨⟨nonempty, supply, left, supplied, difference, plan⟩, unliftable⟩
    have none : ¬ inputs.isEmpty = true := by simpa using nonempty
    unfold fundStep
    rw [supplied]
    dsimp only
    rw [if_neg none, if_pos (Value.covers_of_sub difference), difference]
    dsimp only
    rw [plan]
    dsimp only
    by_cases whole : change.dust = 0
    · rw [if_pos whole]
    · rw [if_neg whole]
      exact takeDust_of_unliftable (unliftable whole)

theorem lastResort_of_fundStep {change : Change}
    (h : fundStep b extraSupply demand inputs spare = .ok (.settled change)) :
    LastResort b (adaCandidates spare) change := by
  intro dust
  obtain ⟨⟨_, _, _, _, _, plan⟩, unliftable⟩ := fundStep_settled_iff.1 h
  exact ⟨(Change.dust_below plan dust).1, unliftable dust⟩

/-- In any pool; an output with a reference is spare once. -/
theorem lastResort_of_fund {funded : Funded}
    (h : b.fund extraSupply demand inputs spare = .ok funded) :
    LastResort b (adaCandidates funded.spare) funded.change := by
  fun_induction fund b extraSupply demand inputs spare with
  | case1 => cases h
  | case2 inputs spare change step =>
    cases h
    exact lastResort_of_fundStep step
  | case3 inputs spare picks nonempty sub step _ ih => exact ih h

theorem LastResort.of_distinct {change : Change} (distinct : (spare.map Utxo.ref).Nodup)
    (resort : LastResort b (adaCandidates spare) change) : LastResort b spare change := by
  intro dust
  obtain ⟨none, minimum, measured, below⟩ := resort dust
  have ada := distinct.sublist
    ((List.filter_sublist (p := Utxo.isAdaOnly) (l := spare)).map Utxo.ref)
  refine ⟨none, minimum, measured, ?_⟩
  rwa [filter_adaCandidates, ← Utxo.coin_held, adaCandidates, Selection.held_ranked_of_nodup ada,
    Utxo.coin_held] at below

/-! ### A fixed fee -/

/-- A fixed fee is charged in the first round, with the dust of that round on top. -/
theorem balance_fixed {draft : Draft} {balanced : Balanced} {fee : Amount}
    (fixed : b.fixedFee = some fee) (given : (inputs.map Utxo.ref).Nodup)
    (distinct : (b.pool.map Utxo.ref).Nodup) (h : b.balance draft inputs = .ok balanced) :
    ∃ change charged, draft.assemble balanced.inputs change.outputs charged b.params.costModels =
        .ok balanced.tx ∧
      charged.toNat = fee.toNat + change.dust.toNat ∧
      LastResort b (withoutRefs b.pool balanced.inputs) change := by
  obtain ⟨terms, first, charged, r, of, firstFee, accepts, rfl⟩ := balance_ok_iff.1 h
  rw [Balancer.firstFee, fixed] at firstFee
  cases firstFee
  obtain rfl := accepts.charged_of_fixed (by rw [fixed]; rfl)
  obtain ⟨_, _, _, round⟩ := accepts.round
  obtain ⟨demand, funded, _, found, _, left, ran⟩ := ran_of_round round
  have apart := (accepts.apart (apart_withoutRefs given distinct)).1
  have charged := ran.charge
  refine ⟨funded.change, _, of.same ▸ ran.assembled, ?_, ?_⟩
  · rw [Amount.toNat_clamp]
    omega
  · have resort := lastResort_of_fund found
    rw [← left] at resort
    rw [← accepts.spare_eq rfl]
    exact resort.of_distinct apart.nodup_spare

end Balancer

end ConwayTx
