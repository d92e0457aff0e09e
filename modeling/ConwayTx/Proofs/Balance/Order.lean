import ConwayTx.Balance
import ConwayTx.Proofs.Selection.Order

/-!
# Balancing and the order of the pool

Balancing reads the references and the values of inputs, and picks from what is spare. Run on pools of
the same outputs, it takes equal outputs in every step (`agree_fundStep`), so that both runs assemble
one transaction (`agree_balance`).
-/

namespace ConwayTx

open Outcome Utxo

theorem Draft.assemble_sameList (d : Draft) {inputs inputs' : List Utxo}
    (same : SameList inputs inputs') (change : List TxOutput) (fee : Amount) (models : CostModels) :
    d.assemble inputs change fee models = d.assemble inputs' change fee models := by
  unfold Draft.assemble
  rw [same.refs]

/-- One transaction, of equal inputs. -/
structure Balanced.Same (r r' : Balanced) : Prop where
  tx : r.tx = r'.tx
  inputs : SameList r.inputs r'.inputs

namespace Balancer

variable {b : Balancer} {inputs inputs' spare spare' : List Utxo}

theorem supplyOf_sameList (same : SameList inputs inputs') (extraSupply : Value) :
    supplyOf extraSupply inputs = supplyOf extraSupply inputs' := by
  have plain (l : List Utxo) : supplyOf extraSupply (l.map Utxo.plain) = supplyOf extraSupply l := by
    unfold supplyOf
    rw [List.foldlM_map]
    congr 1
    funext supply u
    exact Value.add_plain supply u.value
  rw [← plain inputs, ← plain inputs', same]

theorem withoutRefs_samePool (pools : SamePool spare spare') {picks picks' : List Utxo}
    (same : SameList picks picks') :
    SamePool (withoutRefs spare picks) (withoutRefs spare' picks') := by
  have taken (u : Utxo) : picks.any (·.ref = u.ref) = picks'.any (·.ref = u.ref) := by
    have := congrArg (fun refs => refs.any (· = u.ref)) same.refs
    rwa [List.any_map, List.any_map] at this
  have others : withoutRefs spare' picks' = withoutRefs spare' picks := by
    unfold withoutRefs
    simp only [taken]
  rw [others]
  exact pools.filter fun _ => rfl

/-! ### One step of funding -/

/-- Both settle with one change, or both take equal outputs. -/
inductive FundStep.Same : FundStep spare → FundStep spare' → Prop where
  | settled (change : Change) : Same (.settled change) (.settled change)
  | take {picks picks' : List Utxo} (same : SameList picks picks') (nonempty : picks ≠ [])
      (nonempty' : picks' ≠ []) (sub : picks ⊆ spare) (sub' : picks' ⊆ spare') :
      Same (.take picks nonempty sub) (.take picks' nonempty' sub')

theorem takeFor_of_error {pool : List Utxo} {within : pool ⊆ spare} {required committed : Value}
    {recover : Failure → Except Failure (FundStep spare)}
    {otherwise : Except Failure (FundStep spare)} {e : Failure}
    (failed : Selection.selectFrom (Selection.ranked pool) required committed = .error e) :
    takeFor pool within required committed recover otherwise = recover e := by
  unfold takeFor
  split
  · rename_i failed'
    cases failed.symm.trans failed'
    rfl
  · rename_i found
    cases failed.symm.trans found

theorem takeFor_of_ok {pool picks : List Utxo} {within : pool ⊆ spare} {required committed : Value}
    {recover : Failure → Except Failure (FundStep spare)}
    {otherwise : Except Failure (FundStep spare)}
    (found : Selection.selectFrom (Selection.ranked pool) required committed = .ok picks) :
    takeFor pool within required committed recover otherwise = takeOr otherwise picks fun _ mem =>
      within (Selection.subset_ranked pool (Selection.subset_of_selectFrom found mem)) := by
  unfold takeFor
  split
  · rename_i failed
    cases found.symm.trans failed
  · rename_i found'
    cases found.symm.trans found'
    rfl

theorem agree_takeOr {picks picks' : List Utxo} (same : SameList picks picks') (sub : picks ⊆ spare)
    (sub' : picks' ⊆ spare') {otherwise : Except Failure (FundStep spare)}
    {otherwise' : Except Failure (FundStep spare')}
    (falls : Agree FundStep.Same otherwise otherwise') :
    Agree FundStep.Same (takeOr otherwise picks sub) (takeOr otherwise' picks' sub') := by
  have empty : picks = [] ↔ picks' = [] := by
    rw [← List.isEmpty_iff, ← List.isEmpty_iff, same.isEmpty]
  unfold takeOr
  by_cases none : picks = []
  · rw [dif_pos none, dif_pos (empty.1 none)]
    exact falls
  · rw [dif_neg none, dif_neg (mt empty.2 none)]
    exact .ok (.take same _ _ _ _)

theorem agree_takeFor {pool pool' : List Utxo} (pools : SamePool pool pool') (within : pool ⊆ spare)
    (within' : pool' ⊆ spare') (required committed : Value)
    {recover : Failure → Except Failure (FundStep spare)}
    {recover' : Failure → Except Failure (FundStep spare')}
    {otherwise : Except Failure (FundStep spare)} {otherwise' : Except Failure (FundStep spare')}
    (recovers : ∀ e, Agree FundStep.Same (recover e) (recover' e))
    (falls : Agree FundStep.Same otherwise otherwise') :
    Agree FundStep.Same (takeFor pool within required committed recover otherwise)
      (takeFor pool' within' required committed recover' otherwise') := by
  rcases (Selection.agree_selectFrom pools required committed).elim with
    ⟨e, failed, failed'⟩ | ⟨picks, picks', found, found', same⟩
  · rw [takeFor_of_error failed, takeFor_of_error failed']
    exact recovers e
  · rw [takeFor_of_ok found, takeFor_of_ok found']
    exact agree_takeOr same _ _ falls

theorem agree_takeFirst (pools : SamePool spare spare') (supply demand : Value) :
    Agree FundStep.Same (takeFirst spare supply demand) (takeFirst spare' supply demand) := by
  have order := Selection.ranked_samePool pools
  unfold takeFirst
  split
  · rename_i none
    rw [none] at order
    have none' : Selection.ranked spare' = [] := by
      rw [← List.isEmpty_iff, ← order.isEmpty]
      rfl
    split
    · exact .error _
    · rename_i first'
      cases first'.symm.trans none'
  · rename_i u rest first
    rw [first] at order
    split
    · rename_i none'
      rw [none'] at order
      cases order
    · rename_i v rest' first'
      rw [first'] at order
      refine .ok (.take ?_ _ _ _ _)
      exact congrArg (fun u => [u]) (List.cons.inj order).1

theorem agree_takeShortfall (pools : SamePool spare spare') (shortfall : Amount) :
    Agree FundStep.Same (takeShortfall spare shortfall) (takeShortfall spare' shortfall) := by
  unfold takeShortfall
  refine agree_takeFor pools _ _ _ _ (fun e => ?_) (.error _)
  split <;> exact .error _

theorem agree_takeDust (pools : SamePool spare spare') (change : Change) :
    Agree FundStep.Same (takeDust b spare change) (takeDust b spare' change) := by
  unfold takeDust
  dsimp only
  split
  · exact .error _
  · refine agree_takeFor (pools.filter fun _ => rfl) _ _ _ _ (fun e => ?_) (.ok (.settled change))
    split
    · exact .ok (.settled change)
    · exact .error _

theorem agree_fundStep (pools : SamePool spare spare') (same : SameList inputs inputs')
    (extraSupply demand : Value) :
    Agree FundStep.Same (fundStep b extraSupply demand inputs spare)
      (fundStep b extraSupply demand inputs' spare') := by
  unfold fundStep
  rw [← supplyOf_sameList same, ← same.isEmpty]
  split
  · exact .error _
  · split
    · exact agree_takeFirst pools _ demand
    · split
      · split
        · exact .error _
        · split
          · exact .error _
          · exact agree_takeShortfall pools _
          · split
            · exact .ok (.settled _)
            · exact agree_takeDust pools _
      · exact agree_takeFor pools _ _ _ _ (fun e => .error e) (.error _)

/-! ### Funding -/

structure Funded.Same (f f' : Funded) : Prop where
  change : f.change = f'.change
  inputs : SameList f.inputs f'.inputs
  spare : SamePool f.spare f'.spare

theorem fund_of_error {extraSupply demand : Value} {e : Failure}
    (step : fundStep b extraSupply demand inputs spare = .error e) :
    b.fund extraSupply demand inputs spare = .error e := by
  rw [fund, step]

theorem fund_of_settled {extraSupply demand : Value} {change : Change}
    (step : fundStep b extraSupply demand inputs spare = .ok (.settled change)) :
    b.fund extraSupply demand inputs spare = .ok ⟨change, inputs, spare⟩ := by
  rw [fund, step]

theorem fund_of_take {extraSupply demand : Value} {picks : List Utxo} {nonempty : picks ≠ []}
    {sub : picks ⊆ spare}
    (step : fundStep b extraSupply demand inputs spare = .ok (.take picks nonempty sub)) :
    b.fund extraSupply demand inputs spare =
      b.fund extraSupply demand (inputs ++ picks) (withoutRefs spare picks) := by
  rw [fund, step]

/-- The pool of the balancer itself is not looked at any more. -/
theorem agree_fund (pools : SamePool spare spare') (same : SameList inputs inputs')
    (other : List Utxo) (extraSupply demand : Value) :
    Agree Funded.Same (b.fund extraSupply demand inputs spare)
      ({ b with pool := other }.fund extraSupply demand inputs' spare') := by
  -- The second run follows the first step by step, from what the steps before have left of both.
  fun_induction fund b extraSupply demand inputs spare generalizing inputs' spare' with
  | case1 inputs spare e step =>
    rcases (agree_fundStep (b := b) pools same extraSupply demand).elim with
      ⟨_, failed, failed'⟩ | ⟨_, _, took, _⟩
    · cases step.symm.trans failed
      rw [fund_of_error (b := { b with pool := other }) failed']
      exact .error e
    · cases step.symm.trans took
  | case2 inputs spare change step =>
    rcases (agree_fundStep (b := b) pools same extraSupply demand).elim with
      ⟨_, failed, _⟩ | ⟨_, _, settled, settled', agreed⟩
    · cases step.symm.trans failed
    · cases step.symm.trans settled
      cases agreed
      rw [fund_of_settled (b := { b with pool := other }) settled']
      exact .ok ⟨rfl, same, pools⟩
  | case3 inputs spare picks nonempty sub step _ ih =>
    rcases (agree_fundStep (b := b) pools same extraSupply demand).elim with
      ⟨_, failed, _⟩ | ⟨_, _, took, took', agreed⟩
    · cases step.symm.trans failed
    · cases step.symm.trans took
      cases agreed with
      | take picked =>
        rw [fund_of_take (b := { b with pool := other }) took']
        exact ih (withoutRefs_samePool pools picked) (same.append picked)

/-! ### Rounds -/

structure Round.Same (r r' : Round) : Prop where
  tx : r.tx = r'.tx
  estimate : r.estimate = r'.estimate
  inputs : SameList r.inputs r'.inputs
  spare : SamePool r.spare r'.spare

theorem agree_round (pools : SamePool spare spare') (same : SameList inputs inputs')
    (other : List Utxo) (terms : Terms) (fee : Amount) :
    Agree Round.Same (b.round terms fee inputs spare)
      ({ b with pool := other }.round terms fee inputs' spare') := by
  refine .bind_same fun demand => ?_
  refine (agree_fund pools same other terms.extraSupply demand).bind ?_
  rintro ⟨change, taken, rest⟩ ⟨_, taken', rest'⟩ ⟨rfl, inputs, spare⟩
  refine Agree.mapError ?_ _
  dsimp only
  rw [terms.draft.assemble_sameList inputs]
  refine .bind_same fun tx => .bind_same fun estimate => ?_
  exact .ok ⟨rfl, rfl, inputs, spare⟩

theorem agree_accept {r r' : Round} (same : r.Same r') (other : List Utxo) :
    Agree Balanced.Same (b.accept r) ({ b with pool := other }.accept r') := by
  unfold accept
  rw [← same.estimate]
  split
  · exact .error _
  · exact .ok ⟨same.tx, same.inputs⟩

theorem agree_rounds (pools : SamePool spare spare') (same : SameList inputs inputs')
    (other : List Utxo) (terms : Terms) (allowed : Nat) (fee : Amount) :
    Agree Balanced.Same (b.rounds terms allowed fee inputs spare)
      ({ b with pool := other }.rounds terms allowed fee inputs' spare') := by
  induction allowed generalizing fee inputs inputs' spare spare' with
  | zero => exact .error _
  | succ left ih =>
    refine (agree_round pools same other terms fee).bind fun r r' agreed => ?_
    dsimp only
    rw [← agreed.estimate]
    split
    · exact (agree_accept agreed other).mapError _
    · exact ih agreed.spare agreed.inputs _

theorem firstFee_sameList (same : SameList inputs inputs') (other : List Utxo) (terms : Terms) :
    b.firstFee terms inputs = { b with pool := other }.firstFee terms inputs' := by
  unfold firstFee
  rw [terms.draft.assemble_sameList same]
  rfl

/-- Balancing from equal inputs, with pools of the same outputs. -/
theorem agree_balance (pools : SamePool b.pool spare) (same : SameList inputs inputs')
    (draft : Draft) :
    Agree Balanced.Same (b.balance draft inputs)
      ({ b with pool := spare }.balance draft inputs') := by
  refine .bind_same fun scriptCost => .bind_same fun extraSupply => .bind_same fun baseDemand => ?_
  dsimp only
  rw [firstFee_sameList same spare]
  exact .bind_same fun fee => agree_rounds (withoutRefs_samePool pools same) same spare _ _ fee

end Balancer

end ConwayTx
