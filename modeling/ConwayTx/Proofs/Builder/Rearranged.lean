import ConwayTx.Proofs.Balance.Rearranged
import ConwayTx.Proofs.Builder.Stages

/-!
# Builds and the order of given inputs

Given inputs are committed by their sum, kept from selection by their references and balanced in any
order. Collateral that has to be chosen falls back on them in their order, so it is taken to be given
too. A build that ends well then ends with one transaction (`follows_build`), and the evaluator is
asked about the same bytes (`evaluated?_perm`).
-/

namespace ConwayTx.Builder

open Outcome

/-- The builder with other given inputs. -/
def withInputs (b : Builder) (inputs : List Utxo) : Builder := { b with preselected := inputs }

/-- No collateral has to be chosen. -/
def HasCollateral (b : Builder) : Prop := b.runsScripts = true → b.collateral ≠ []

variable {b : Builder} {chain : Chain} {ground : Ground} {inputs : List Utxo}

theorem runsScripts_withInputs : (b.withInputs inputs).runsScripts = b.runsScripts := rfl

theorem estimates_withInputs : (b.withInputs inputs).estimates = b.estimates := rfl

theorem ground_withInputs : (b.withInputs inputs).ground chain = b.ground chain := rfl

/-! ### One build -/

theorem follows_selectInputs (perm : b.preselected.Perm inputs) (draft : Draft) (maxFee : Amount) :
    Follows List.Perm (b.selectInputs draft ground maxFee)
      ((b.withInputs inputs).selectInputs draft ground maxFee) := by
  have used : SortedMap.ofKeys (b.preselected.map Utxo.ref) = .ofKeys (inputs.map Utxo.ref) :=
    SortedMap.addKeys_perm (perm.map _) ∅
  refine .bind_same fun extra => ?_
  refine (Balancer.follows_supplyOf perm).mapError.mapError.bind ?_
  rintro committed _ rfl
  refine .bind_same fun demand => .bind_same fun required => ?_
  rw [used]
  exact .bind_same fun picks => .ok (perm.append_right picks)

theorem addCollateralTo_of_given (given : b.collateral ≠ []) (body : TxBody) (maxFee : Amount)
    (inputs : List Utxo) : b.addCollateralTo body ground maxFee inputs =
      .ok { body with collateral := .ofKeys (b.collateral.map Utxo.ref) } := by
  unfold addCollateralTo
  rw [if_neg (by simpa using given)]
  rfl

theorem follows_buildWith (perm : b.preselected.Perm inputs) (given : b.HasCollateral)
    (redeemers : PendingRedeemers) :
    Follows Balanced.Rearranged (b.buildWith chain ground redeemers)
      ((b.withInputs inputs).buildWith chain ground redeemers) := by
  refine .bind_same fun draft => .bind_same fun maxFee => ?_
  refine (follows_selectInputs perm draft maxFee).bind fun selected selected' same => ?_
  dsimp only
  rw [runsScripts_withInputs]
  split
  · rename_i runs
    rw [addCollateralTo_of_given (given runs),
      addCollateralTo_of_given (b := b.withInputs inputs) (given runs)]
    exact Balancer.follows_balance same _
  · exact Balancer.follows_balance same _

/-! ### Budgets -/

theorem follows_trial (perm : b.preselected.Perm inputs) (given : b.HasCollateral) :
    Follows Eq (b.trial chain ground) ((b.withInputs inputs).trial chain ground) := by
  refine (follows_buildWith perm given b.redeemers).bind ?_
  rintro balanced _ ⟨_, _, rfl⟩
  exact .refl _

theorem follows_settledRedeemers (perm : b.preselected.Perm inputs) (given : b.HasCollateral) :
    Follows Eq (b.settledRedeemers chain ground)
      ((b.withInputs inputs).settledRedeemers chain ground) := by
  unfold settledRedeemers
  rw [estimates_withInputs]
  split
  · refine (follows_trial perm given).bind ?_
    rintro trial _ rfl
    exact .refl _
  · exact .refl _

theorem follows_build (perm : b.preselected.Perm inputs) (given : b.HasCollateral) :
    Follows Balanced.Rearranged (b.build chain) ((b.withInputs inputs).build chain) := by
  refine .bind_same fun ground => (follows_settledRedeemers perm given).bind ?_
  rintro redeemers _ rfl
  exact follows_buildWith perm given redeemers

/-! ### Finalizing -/

theorem follows_finalize (perm : b.preselected.Perm inputs) (given : b.HasCollateral) :
    Follows Eq (b.finalize chain).1 ((b.withInputs inputs).finalize chain).1 := by
  intro tx h
  obtain ⟨balanced, stage, built, rfl, _⟩ := finalize_ok h
  obtain ⟨_, built', _, _, rfl⟩ := follows_build perm given balanced built
  refine ⟨balanced.tx, ?_, rfl⟩
  rw [finalize_of_collecting (b := b.withInputs inputs) stage, built']

theorem finalize_perm (perm : b.preselected.Perm inputs) (given : b.HasCollateral)
    (tx : Transaction) :
    (b.finalize chain).1 = .ok tx ↔ ((b.withInputs inputs).finalize chain).1 = .ok tx :=
  ok_iff_of_follows (follows_finalize perm given)
    (follows_finalize (b := b.withInputs inputs) perm.symm given) tx

theorem evaluated?_perm (perm : b.preselected.Perm inputs) (given : b.HasCollateral) :
    b.evaluated? chain = (b.withInputs inputs).evaluated? chain := by
  unfold evaluated?
  rw [estimates_withInputs, ground_withInputs]
  split
  · cases b.ground chain with
    | error e => rfl
    | ok ground =>
      have trials : (b.trial chain ground).toOption =
          ((b.withInputs inputs).trial chain ground).toOption :=
        toOption_eq_of_follows (follows_trial perm given)
          (follows_trial (b := b.withInputs inputs) perm.symm given)
      exact congrArg (Option.map Trial.encoded) trials
  · rfl

end ConwayTx.Builder
