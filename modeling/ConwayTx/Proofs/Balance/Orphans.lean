import ConwayTx.Balance
import ConwayTx.Builder.Build
import ConwayTx.Proofs.Outcome.Failing

/-!
# Where orphans are found

Of all that a build does, only assembling can find a redeemer without its item
(`Draft.within_assemble`), and only the fee rounds can leave a fee unsettled. So balancing reports no
other orphans than those that stay when inputs are added (`within_balance`).
-/

namespace ConwayTx

open Outcome

/-! ### Errors about orphans and fees -/

/-- Whatever orphan the error names is one of these, and a fee only stays open if `unsettled`. -/
def BuildError.Within (missing : RedeemerTarget → Prop) (unsettled : Prop) : BuildError → Prop
  | .orphanRedeemer target => missing target
  | .feeNotConverged .. => unsettled
  | _ => True

def Failure.Within (missing : RedeemerTarget → Prop) (unsettled : Prop) : Failure → Prop
  | .refused error => error.Within missing unsettled
  | .overflow => True

variable {missing missing' : RedeemerTarget → Prop} {unsettled unsettled' : Prop} {α : Type}

theorem BuildError.Within.imp {e : BuildError} (within : e.Within missing unsettled)
    (sub : ∀ target, missing target → missing' target) (open' : unsettled → unsettled') :
    e.Within missing' unsettled' := by
  cases e with
  | orphanRedeemer target => exact sub target within
  | feeNotConverged => exact open' within
  | _ => trivial

theorem BuildError.within_ofEncodeError (e : EncodeError) :
    (ofEncodeError e).Within missing unsettled := by
  cases e <;> trivial

theorem within_expectTotal (total : Option Amount) :
    Fails (Failure.Within missing unsettled) (expectTotal total) := by
  unfold expectTotal
  split
  · exact .ok _
  · exact .error trivial

theorem within_ask (task : ChainTask) (answer : Except String α) :
    Fails (BuildError.Within missing unsettled) (task.ask answer) :=
  .renamed fun _ => trivial

/-! ### Outputs -/

theorem Payment.within_value (p : Payment) : Fails (BuildError.Within missing unsettled) p.value := by
  refine .foldlM (fun v u => ?_) _ _
  unfold addUnit
  split
  · exact .error trivial
  · refine .bind (.renamed fun _ => trivial) fun one _ => ?_
    exact .renamed fun _ => trivial

theorem Payment.within_output (p : Payment) (coinsPerByte : Amount) :
    Fails (BuildError.Within missing unsettled) (p.output coinsPerByte) :=
  p.within_value.bind fun _ _ => .renamed BuildError.within_ofEncodeError

/-! ### Selection and collateral -/

namespace Selection

theorem within_coverAssets (assets : List (PolicyId × AssetName × Int)) (start : Progress) :
    Fails (BuildError.Within missing unsettled) (coverAssets assets start) := by
  fun_induction coverAssets assets start with
  | case1 => exact .ok _
  | case2 _ _ _ _ _ _ _ ih => exact ih
  | case3 => exact .error trivial
  | case4 _ _ _ _ _ _ _ _ _ ih => exact ih

theorem within_coverCoin (required committed : Value) (progress : Progress) :
    Fails (Failure.Within missing unsettled) (coverCoin required committed progress) := by
  unfold coverCoin
  dsimp only
  split
  · exact .ok _
  · refine .bind ?_ fun amount _ => .error trivial
    refine .bind (within_expectTotal _) fun picked _ => ?_
    exact .bind (within_expectTotal _) fun unpicked _ => .ok _

theorem within_selectFrom (candidates : List Utxo) (required committed : Value) :
    Fails (Failure.Within missing unsettled) (selectFrom candidates required committed) := by
  unfold selectFrom
  dsimp only
  split
  · rename_i e failed
    exact .error (within_coverAssets _ _ e failed)
  · exact within_coverCoin required committed _

end Selection

namespace Collateral

variable {target coinsPerByte : Amount} {returnAddress : Address}

theorem within_forFee (fee : Amount) (percent : UInt32) :
    Fails (Failure.Within missing unsettled) (forFee fee percent) := by
  unfold forFee
  split
  · exact .error trivial
  · split
    · exact .error trivial
    · split
      · exact .ok _
      · exact .error trivial

theorem within_serve? (u : Utxo) :
    Fails (BuildError.Within missing unsettled) (serve? target returnAddress coinsPerByte u) := by
  unfold serve?
  split
  · exact .ok _
  · split
    · exact .ok _
    · refine .bind (.renamed BuildError.within_ofEncodeError) fun required _ => ?_
      split <;> exact .ok _

theorem within_firstServing (l : List Utxo) :
    Fails (BuildError.Within missing unsettled)
      (firstServing target returnAddress coinsPerByte l) := by
  induction l with
  | nil => exact .error trivial
  | cons u rest ih =>
    refine .bind (within_serve? u) fun served _ => ?_
    split
    · exact .ok _
    · exact ih

end Collateral

/-! ### Drafts -/

theorem Fee.within_scripts (units : ExUnits) (params : ProtocolParams) :
    Fails (Failure.Within missing unsettled) (Fee.scripts units params) := by
  unfold scripts
  dsimp only
  split
  · exact .error trivial
  · split
    · exact .ok _
    · exact .error trivial

namespace Draft

theorem within_extraSupply (d : Draft) (params : ProtocolParams) :
    Fails (Failure.Within missing unsettled) (d.extraSupply params) := by
  refine .bind (within_expectTotal _) fun withdrawn _ => ?_
  exact .bind (within_expectTotal _) fun refunds _ => .renamed fun _ => trivial

theorem within_baseDemand (d : Draft) (params : ProtocolParams) :
    Fails (Failure.Within missing unsettled) (d.baseDemand params) :=
  .bind (within_expectTotal _) fun _ _ => .renamed fun _ => trivial

/-- What `assemble` finds no place for. -/
theorem within_assemble (d : Draft) (inputs : List Utxo) (change : List TxOutput) (fee : Amount)
    (models : CostModels) :
    Fails (BuildError.Within (fun target => d.redeemers.contains target = true ∧
        (RedeemerLayout.ofBody { d.body with
          inputs := d.body.inputs.addKeys (inputs.map Utxo.ref) }).position? target = none) unsettled)
      (d.assemble inputs change fee models) := by
  refine .bind ?_ fun redeemers _ => ?_
  · refine .bind (.mapM fun (target, redeemer) mem => ?_) fun placed _ => .ok _
    dsimp only
    split
    · exact .ok _
    · rename_i unplaced
      refine .error ⟨?_, Option.map_eq_none_iff.1 unplaced⟩
      rw [SortedMap.contains, SortedMap.find?_eq_some_iff.2 mem]
      rfl
  · exact .bind (.renamed BuildError.within_ofEncodeError) fun hash _ => .ok _

end Draft

/-! ### Balancing -/

namespace Balancer

variable {b : Balancer} {spare : List Utxo}

theorem within_takeOr {otherwise : Except Failure (FundStep spare)} {picks : List Utxo}
    {sub : picks ⊆ spare} (falls : Fails (Failure.Within missing unsettled) otherwise) :
    Fails (Failure.Within missing unsettled) (takeOr otherwise picks sub) := by
  unfold takeOr
  split
  · exact falls
  · exact .ok _

theorem within_takeFor {pool : List Utxo} (within : pool ⊆ spare) {required committed : Value}
    {recover : Failure → Except Failure (FundStep spare)}
    {otherwise : Except Failure (FundStep spare)}
    (recovers : ∀ e, e.Within missing unsettled → Fails (Failure.Within missing unsettled) (recover e))
    (falls : Fails (Failure.Within missing unsettled) otherwise) :
    Fails (Failure.Within missing unsettled)
      (takeFor pool within required committed recover otherwise) := by
  unfold takeFor
  split
  · rename_i e failed
    exact recovers e (Selection.within_selectFrom _ _ _ e failed)
  · exact within_takeOr falls

theorem within_takeFirst (supply demand : Value) :
    Fails (Failure.Within missing unsettled) (takeFirst spare supply demand) := by
  unfold takeFirst
  split
  · exact .error trivial
  · exact .ok _

theorem within_takeShortfall (shortfall : Amount) :
    Fails (Failure.Within missing unsettled) (takeShortfall spare shortfall) := by
  refine within_takeFor (List.Subset.refl _) (fun e within => ?_) (.error trivial)
  split
  · exact .error trivial
  · exact .error within

theorem within_takeDust (change : Change) :
    Fails (Failure.Within missing unsettled) (takeDust b spare change) := by
  unfold takeDust
  dsimp only
  split
  · exact .error (BuildError.within_ofEncodeError _)
  · refine within_takeFor _ (fun e within => ?_) (.ok _)
    split
    · exact .ok _
    · exact .error within

theorem within_fundStep (extraSupply demand : Value) (inputs : List Utxo) :
    Fails (Failure.Within missing unsettled) (fundStep b extraSupply demand inputs spare) := by
  unfold fundStep
  split
  · exact .error trivial
  · split
    · exact within_takeFirst _ _
    · split
      · split
        · exact .error trivial
        · split
          · exact .error (BuildError.within_ofEncodeError _)
          · exact within_takeShortfall _
          · split
            · exact .ok _
            · exact within_takeDust _
      · exact within_takeFor _ (fun _ within => .error within) (.error trivial)

theorem within_fund (extraSupply demand : Value) (inputs : List Utxo) :
    Fails (Failure.Within missing unsettled) (b.fund extraSupply demand inputs spare) := by
  fun_induction fund b extraSupply demand inputs spare with
  | case1 _ _ e failed => exact .error (within_fundStep _ _ _ e failed)
  | case2 => exact .ok _
  | case3 _ _ _ _ _ _ _ ih => exact ih

theorem fund_keeps {extraSupply demand : Value} {inputs : List Utxo} {funded : Funded}
    (h : b.fund extraSupply demand inputs spare = .ok funded) : inputs ⊆ funded.inputs := by
  fun_induction fund b extraSupply demand inputs spare with
  | case1 => cases h
  | case2 =>
    cases h
    exact List.Subset.refl _
  | case3 _ _ _ _ _ _ _ ih => exact List.Subset.trans (List.subset_append_left _ _) (ih h)

/-- Whatever inputs are added to these, assembling finds no other orphans. -/
def Assembles (missing : RedeemerTarget → Prop) (draft : Draft) (inputs : List Utxo) : Prop :=
  ∀ more change fee models, inputs ⊆ more →
    Fails (BuildError.Within missing False) (draft.assemble more change fee models)

theorem Assembles.within {draft : Draft} {inputs more : List Utxo}
    (assembles : Assembles missing draft inputs) (sub : inputs ⊆ more) (change : List TxOutput)
    (fee : Amount) (models : CostModels) :
    Fails (BuildError.Within missing unsettled) (draft.assemble more change fee models) :=
  (assembles more change fee models sub).imp fun _ within => within.imp (fun _ => id) False.elim

theorem Assembles.mono {draft : Draft} {inputs more : List Utxo}
    (assembles : Assembles missing draft inputs) (sub : inputs ⊆ more) :
    Assembles missing draft more :=
  fun most change fee models within =>
    assembles most change fee models (List.Subset.trans sub within)

theorem within_firstFee {terms : Terms} {inputs : List Utxo}
    (assembles : Assembles missing terms.draft inputs) :
    Fails (BuildError.Within missing unsettled) (b.firstFee terms inputs) := by
  unfold firstFee
  split
  · exact .ok _
  · refine .bind (assembles.within (List.Subset.refl _) _ _ _) fun tx _ => ?_
    exact .bind (.renamed BuildError.within_ofEncodeError) fun estimate _ => .ok _

theorem within_round {terms : Terms} {fee : Amount} {inputs : List Utxo}
    (assembles : Assembles missing terms.draft inputs) :
    Fails (Failure.Within missing unsettled) (b.round terms fee inputs spare) := by
  refine .bind (.renamed fun _ => trivial) fun demand _ => ?_
  refine .bind (within_fund _ _ _) fun funded found => .mapError ?_
  refine .bind (assembles.within (fund_keeps found) _ _ _) fun tx _ => ?_
  exact .bind (.renamed BuildError.within_ofEncodeError) fun estimate _ => .ok _

theorem round_keeps {terms : Terms} {fee : Amount} {inputs : List Utxo} {r : Round}
    (h : b.round terms fee inputs spare = .ok r) : inputs ⊆ r.inputs := by
  obtain ⟨demand, _, h⟩ := bind_ok h
  obtain ⟨funded, found, h⟩ := bind_ok h
  obtain ⟨tx, _, h⟩ := bind_ok (mapError_ok h)
  obtain ⟨estimate, _, h⟩ := bind_ok h
  obtain rfl := pure_ok h
  exact fund_keeps found

theorem within_accept (r : Round) : Fails (BuildError.Within missing unsettled) (b.accept r) := by
  unfold accept
  split
  · exact .error trivial
  · exact .ok _

theorem within_rounds {terms : Terms} {allowed : Nat} {fee : Amount} {inputs : List Utxo}
    (assembles : Assembles missing terms.draft inputs) :
    Fails (Failure.Within missing True) (b.rounds terms allowed fee inputs spare) := by
  induction allowed generalizing fee inputs spare with
  | zero => exact .error trivial
  | succ left ih =>
    refine .bind (within_round assembles) fun r ran => ?_
    split
    · exact .mapError (within_accept r)
    · exact ih (assembles.mono (round_keeps ran))

theorem within_balance {draft : Draft} {inputs : List Utxo}
    (assembles : Assembles missing draft inputs) :
    Fails (Failure.Within missing True) (b.balance draft inputs) := by
  refine .bind (Fee.within_scripts _ _) fun scriptCost _ => ?_
  refine .bind (draft.within_extraSupply _) fun extraSupply _ => ?_
  refine .bind (draft.within_baseDemand _) fun baseDemand _ => ?_
  refine .bind (.mapError (within_firstFee assembles)) fun fee _ => ?_
  exact within_rounds assembles

end Balancer

end ConwayTx
