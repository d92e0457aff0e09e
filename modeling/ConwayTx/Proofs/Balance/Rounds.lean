import ConwayTx.Balance
import ConwayTx.Proofs.Outcome
import ConwayTx.Proofs.Selection.Completeness

/-!
# Rounds

What a balanced transaction went through (`balance_ok`). Inputs and spare outputs stay apart
(`Apart`), funding ends with inputs that settle (`Settles`), and the round that is accepted
assembled exactly the transaction that comes out.
-/

namespace ConwayTx.Balancer

open Outcome

variable {b : Balancer} {extraSupply demand : Value} {inputs spare : List Utxo}

/-! ### Inputs and spare outputs -/

/-- No reference stands twice among the inputs and the spare outputs. -/
def Apart (inputs spare : List Utxo) : Prop := ((inputs ++ spare).map Utxo.ref).Nodup

theorem Apart.nodup_inputs (apart : Apart inputs spare) : (inputs.map Utxo.ref).Nodup := by
  rw [Apart, List.map_append] at apart
  exact (List.nodup_append.1 apart).1

theorem Apart.nodup_spare (apart : Apart inputs spare) : (spare.map Utxo.ref).Nodup := by
  rw [Apart, List.map_append] at apart
  exact (List.nodup_append.1 apart).2.1

theorem withoutRefs_sublist (pool taken : List Utxo) : (withoutRefs pool taken).Sublist pool :=
  List.filter_sublist

theorem not_mem_withoutRefs {pool taken : List Utxo} {u v : Utxo} (mem : u ∈ withoutRefs pool taken)
    (took : v ∈ taken) : v.ref ≠ u.ref := by
  have kept := (List.mem_filter.1 mem).2
  simp only [Bool.not_eq_true', List.any_eq_false, decide_eq_true_eq] at kept
  exact kept v took

theorem apart_withoutRefs {pool : List Utxo} (taken : (inputs.map Utxo.ref).Nodup)
    (distinct : (pool.map Utxo.ref).Nodup) : Apart inputs (withoutRefs pool inputs) := by
  rw [Apart, List.map_append, List.nodup_append]
  refine ⟨taken, distinct.sublist ((withoutRefs_sublist pool _).map _), ?_⟩
  intro r mem r' mem' same
  obtain ⟨v, took, rfl⟩ := List.mem_map.1 mem
  obtain ⟨u, kept, rfl⟩ := List.mem_map.1 mem'
  exact not_mem_withoutRefs kept took same

/-- Picks move from the spare outputs to the inputs. -/
theorem Apart.take {picks : List Utxo} (apart : Apart inputs spare) (sub : picks ⊆ spare)
    (distinct : (picks.map Utxo.ref).Nodup) :
    Apart (inputs ++ picks) (withoutRefs spare picks) := by
  have moved := apart_withoutRefs distinct apart.nodup_spare
  rw [Apart, List.map_append, List.nodup_append] at apart
  rw [Apart, List.append_assoc, List.map_append, List.nodup_append]
  refine ⟨apart.1, moved, fun r mem r' mem' => apart.2.2 r mem r' ?_⟩
  obtain ⟨u, inside, rfl⟩ := List.mem_map.1 mem'
  rcases List.mem_append.1 inside with picked | kept
  · exact List.mem_map_of_mem (sub picked)
  · exact List.mem_map_of_mem ((withoutRefs_sublist spare picks).subset kept)

/-! ### One step of funding -/

/-- The inputs cover the demand, and `change` is the plan for what is left. -/
def Settles (b : Balancer) (extraSupply demand : Value) (inputs : List Utxo) (change : Change) :
    Prop :=
  inputs ≠ [] ∧ ∃ supply left, supplyOf extraSupply inputs = .ok supply ∧
    supply.sub demand = .ok left ∧ Change.plan b.params b.changeAddress left = .ok (.payable change)

/-- How a step comes about: outputs are taken for want of an input, for the demand, or for the minimum
of the change or of dust, or else the inputs settle. -/
inductive FundStep.Reason (b : Balancer) (extraSupply demand : Value) (inputs : List Utxo)
    (step : FundStep spare) : Prop where
  | first {supply : Value} (supplied : supplyOf extraSupply inputs = .ok supply)
    (empty : inputs = []) (took : takeFirst spare supply demand = .ok step)
  | demand {supply : Value} (supplied : supplyOf extraSupply inputs = .ok supply)
    (short : supply.covers demand = false) (took : takeDemand spare supply demand = .ok step)
  | shortfall {supply left : Value} {lacking : Amount}
    (supplied : supplyOf extraSupply inputs = .ok supply)
    (difference : supply.sub demand = .ok left)
    (plan : Change.plan b.params b.changeAddress left = .ok (.short lacking))
    (took : takeShortfall spare lacking = .ok step)
  | settled {change : Change} (settles : Settles b extraSupply demand inputs change)
    (whole : change.dust = 0) (same : step = .settled change)
  | dust {change : Change} (settles : Settles b extraSupply demand inputs change)
    (some : change.dust ≠ 0) (took : takeDust b spare change = .ok step)

theorem reason_of_fundStep {step : FundStep spare}
    (h : fundStep b extraSupply demand inputs spare = .ok step) :
    step.Reason b extraSupply demand inputs := by
  unfold fundStep at h
  split at h
  · cases h
  rename_i supply supplied
  split at h
  · rename_i empty
    exact .first supplied (List.isEmpty_iff.1 empty) h
  rename_i nonempty
  split at h
  · split at h
    · cases h
    rename_i left difference
    split at h
    · cases h
    · rename_i lacking plan
      exact .shortfall supplied difference plan h
    · rename_i change plan
      have settles : Settles b extraSupply demand inputs change :=
        ⟨by simpa using nonempty, supply, left, supplied, difference, plan⟩
      split at h
      · rename_i whole
        cases h
        exact .settled settles whole rfl
      · rename_i some
        exact .dust settles some h
  · rename_i short
    exact .demand supplied (Bool.eq_false_of_not_eq_true short) h

/-- Where outputs are looked for, they are taken unless something else is done. -/
theorem settled_of_takeFor {pool : List Utxo} (within : pool ⊆ spare) {required committed : Value}
    {recover : Failure → Except Failure (FundStep spare)}
    {otherwise : Except Failure (FundStep spare)} {change : Change}
    (h : takeFor pool within required committed recover otherwise = .ok (.settled change)) :
    (∃ e, recover e = .ok (.settled change)) ∨ otherwise = .ok (.settled change) := by
  unfold takeFor at h
  split at h
  · exact .inl ⟨_, h⟩
  · unfold takeOr at h
    split at h
    · exact .inr h
    · cases h

theorem settled_of_takeDust {change planned : Change}
    (h : takeDust b spare planned = .ok (.settled change)) : change = planned := by
  unfold takeDust at h
  dsimp only at h
  split at h
  · cases h
  · rcases settled_of_takeFor _ h with ⟨e, recovered⟩ | fallback
    · split at recovered
      · cases recovered
        rfl
      · cases recovered
    · cases fallback
      rfl

/-- A step that settles left a plan as it was; what it looked for was not wanted or not there. -/
theorem reason_of_settled {change : Change}
    (h : fundStep b extraSupply demand inputs spare = .ok (.settled change)) :
    Settles b extraSupply demand inputs change ∧
      (change.dust = 0 ∨ takeDust b spare change = .ok (.settled change)) := by
  cases reason_of_fundStep h with
  | first _ _ took =>
    unfold takeFirst at took
    split at took <;> cases took
  | demand _ _ took =>
    rcases settled_of_takeFor (List.Subset.refl _) took with ⟨e, recovered⟩ | fallback
    · cases recovered
    · cases fallback
  | shortfall _ _ _ took =>
    rcases settled_of_takeFor (List.Subset.refl _) took with ⟨e, recovered⟩ | fallback
    · split at recovered <;> cases recovered
    · cases fallback
  | settled settles whole same =>
    cases same
    exact ⟨settles, .inl whole⟩
  | dust settles _ took =>
    obtain rfl := settled_of_takeDust took
    exact ⟨settles, .inr took⟩

/-! ### What a step takes -/

/-- No output is taken twice. -/
def FundStep.TakesOnce : FundStep spare → Prop
  | .settled _ => True
  | .take picks _ _ => (picks.map Utxo.ref).Nodup

theorem takesOnce_of_takeFor {pool : List Utxo} (within : pool ⊆ spare) {required committed : Value}
    {recover : Failure → Except Failure (FundStep spare)}
    {otherwise : Except Failure (FundStep spare)} {step : FundStep spare}
    (h : takeFor pool within required committed recover otherwise = .ok step)
    (distinct : (pool.map Utxo.ref).Nodup) (recovered : ∀ e, recover e = .ok step → step.TakesOnce)
    (fallback : otherwise = .ok step → step.TakesOnce) : step.TakesOnce := by
  unfold takeFor at h
  split at h
  · exact recovered _ h
  · rename_i picks found
    unfold takeOr at h
    split at h
    · exact fallback h
    · cases h
      exact Selection.nodup_refs_of_selectFrom (Utxo.consistent_of_nodup distinct) found

theorem takesOnce_of_takeDust {change : Change} {step : FundStep spare}
    (h : takeDust b spare change = .ok step) (distinct : (spare.map Utxo.ref).Nodup) :
    step.TakesOnce := by
  unfold takeDust at h
  dsimp only at h
  split at h
  · cases h
  · have ada := distinct.sublist
      ((List.filter_sublist (p := Utxo.isAdaOnly) (l := spare)).map Utxo.ref)
    refine takesOnce_of_takeFor _ h ada (fun e recovered => ?_) fun fallback => ?_
    · split at recovered <;> cases recovered
      exact trivial
    · cases fallback
      exact trivial

theorem takesOnce_of_fundStep {step : FundStep spare}
    (h : fundStep b extraSupply demand inputs spare = .ok step)
    (distinct : (spare.map Utxo.ref).Nodup) : step.TakesOnce := by
  cases reason_of_fundStep h with
  | first _ _ took =>
    unfold takeFirst at took
    split at took
    · cases took
    · cases took
      exact List.nodup_singleton _
  | demand _ _ took =>
    exact takesOnce_of_takeFor (List.Subset.refl _) took distinct (fun e recovered => by cases recovered)
      fun fallback => by cases fallback
  | shortfall _ _ _ took =>
    refine takesOnce_of_takeFor (List.Subset.refl _) took distinct (fun e recovered => ?_)
      fun fallback => by cases fallback
    split at recovered <;> cases recovered
  | settled _ _ same =>
    rw [same]
    exact trivial
  | dust _ _ took => exact takesOnce_of_takeDust took distinct

/-! ### Funding -/

theorem settles_of_fund {funded : Funded} (h : b.fund extraSupply demand inputs spare = .ok funded) :
    Settles b extraSupply demand funded.inputs funded.change := by
  fun_induction fund b extraSupply demand inputs spare with
  | case1 => cases h
  | case2 inputs spare change step =>
    cases h
    exact (reason_of_settled step).1
  | case3 _ _ _ _ _ _ _ ih => exact ih h

theorem fund_ok {funded : Funded} (h : b.fund extraSupply demand inputs spare = .ok funded)
    (apart : Apart inputs spare) :
    Apart funded.inputs funded.spare ∧ inputs ⊆ funded.inputs ∧ funded.inputs ⊆ inputs ++ spare ∧
      funded.spare ⊆ spare := by
  fun_induction fund b extraSupply demand inputs spare with
  | case1 => cases h
  | case2 inputs spare change step =>
    cases h
    exact ⟨apart, List.Subset.refl _, List.subset_append_left _ _, List.Subset.refl _⟩
  | case3 inputs spare picks nonempty sub step _ ih =>
    have once : (picks.map Utxo.ref).Nodup := takesOnce_of_fundStep step apart.nodup_spare
    obtain ⟨stillApart, grown, within, shrunk⟩ := ih h (apart.take sub once)
    have rest : withoutRefs spare picks ⊆ spare := (withoutRefs_sublist spare picks).subset
    refine ⟨stillApart, List.Subset.trans (List.subset_append_left _ _) grown,
      List.Subset.trans within ?_, List.Subset.trans shrunk rest⟩
    rw [List.append_assoc]
    exact List.append_subset.2 ⟨List.subset_append_left _ _, List.subset_append_of_subset_right _
      (List.append_subset.2 ⟨sub, rest⟩)⟩

theorem withoutRefs_append (pool inputs picks : List Utxo) :
    withoutRefs pool (inputs ++ picks) = withoutRefs (withoutRefs pool inputs) picks := by
  unfold withoutRefs
  rw [List.filter_filter]
  refine List.filter_congr fun u _ => ?_
  rw [List.any_append, Bool.not_or, Bool.and_comm]

/-- Funding out of a pool leaves the pool without the inputs. -/
theorem spare_of_fund {pool : List Utxo} {funded : Funded} (rest : spare = withoutRefs pool inputs)
    (h : b.fund extraSupply demand inputs spare = .ok funded) :
    funded.spare = withoutRefs pool funded.inputs := by
  fun_induction fund b extraSupply demand inputs spare with
  | case1 => cases h
  | case2 =>
    cases h
    exact rest
  | case3 inputs spare picks nonempty sub step _ ih =>
    subst rest
    exact ih (withoutRefs_append pool inputs picks).symm h

/-! ### Fee rounds -/

/-- What happened in a round: dust on top of the fee, and the estimate of what was assembled. -/
structure Ran (b : Balancer) (terms : Terms) (fee : Amount) (demand : Value) (change : Change)
    (r : Round) : Prop where
  demanded : terms.baseDemand.add (.ofCoin fee) = .ok demand
  settles : Settles b terms.extraSupply demand r.inputs change
  assembled : terms.draft.assemble r.inputs change.outputs
    (Amount.clamp (fee.toNat + change.dust.toNat)) b.params.costModels = .ok r.tx
  estimated : b.estimate terms r.tx = .ok r.estimate

/-- A round ran with what its inputs were funded for. -/
theorem ran_of_round {terms : Terms} {fee : Amount} {r : Round}
    (h : b.round terms fee inputs spare = .ok r) :
    ∃ demand funded, terms.baseDemand.add (.ofCoin fee) = .ok demand ∧
      b.fund terms.extraSupply demand inputs spare = .ok funded ∧ r.inputs = funded.inputs ∧
      r.spare = funded.spare ∧ Ran b terms fee demand funded.change r := by
  obtain ⟨demand, demanded, h⟩ := bind_ok h
  obtain ⟨funded, found, h⟩ := bind_ok h
  obtain ⟨tx, assembled, h⟩ := bind_ok (mapError_ok h)
  obtain ⟨estimate, estimated, h⟩ := bind_ok h
  obtain rfl := pure_ok h
  exact ⟨demand, funded, mapError_ok demanded, found, rfl, rfl, mapError_ok demanded,
    settles_of_fund found, assembled, mapError_ok estimated⟩

theorem round_of_fund {terms : Terms} {fee : Amount} {funded : Funded} {tx : Transaction}
    {estimate : Fee.Estimate} (demanded : terms.baseDemand.add (.ofCoin fee) = .ok demand)
    (found : b.fund terms.extraSupply demand inputs spare = .ok funded)
    (assembled : terms.draft.assemble funded.inputs funded.change.outputs
      (Amount.clamp (fee.toNat + funded.change.dust.toNat)) b.params.costModels = .ok tx)
    (estimated : b.estimate terms tx = .ok estimate) :
    b.round terms fee inputs spare = .ok ⟨tx, estimate, funded.inputs, funded.spare⟩ := by
  unfold Balancer.round
  rw [demanded]
  refine (bind_of_ok found).trans ?_
  dsimp only
  rw [assembled]
  show Except.mapError _ (liftM (b.estimate terms tx) >>= _) = _
  rw [estimated]
  rfl

theorem round_ok {terms : Terms} {fee : Amount} {r : Round}
    (h : b.round terms fee inputs spare = .ok r) (apart : Apart inputs spare) :
    (∃ demand change, Ran b terms fee demand change r) ∧ Apart r.inputs r.spare ∧
      inputs ⊆ r.inputs ∧ r.inputs ⊆ inputs ++ spare ∧ r.spare ⊆ spare := by
  obtain ⟨demand, funded, _, found, taken, left, ran⟩ := ran_of_round h
  rw [taken, left]
  exact ⟨⟨demand, funded.change, ran⟩, fund_ok found apart⟩

/-- The last round: its fee covers its estimate, unless the fee is fixed, and its size fits. -/
structure Accepted (b : Balancer) (fee : Amount) (r : Round) : Prop where
  covered : b.fixedFee.isSome ∨ r.estimate.fee ≤ fee
  fits : r.estimate.size ≤ b.params.maxTxSize.toNat

theorem accept_ok {r : Round} {balanced : Balanced} (h : b.accept r = .ok balanced) :
    r.estimate.size ≤ b.params.maxTxSize.toNat ∧ balanced = ⟨r.tx, r.inputs⟩ := by
  unfold accept at h
  split at h
  · cases h
  · rename_i fits
    cases h
    exact ⟨not_lt.1 fits, rfl⟩

/-- Among the rounds that are left one begins with `charged` and is accepted: it ran as `r`. -/
inductive Accepts (b : Balancer) (terms : Terms) (charged : Amount) (r : Round) :
    Nat → Amount → List Utxo → List Utxo → Prop where
  | last {left : Nat} {inputs spare : List Utxo} (ran : b.round terms charged inputs spare = .ok r)
      (accepted : Accepted b charged r) : Accepts b terms charged r (left + 1) charged inputs spare
  | next {left : Nat} {fee : Amount} {inputs spare : List Utxo} {before : Round}
      (ran : b.round terms fee inputs spare = .ok before)
      (short : ¬ (b.fixedFee.isSome ∨ before.estimate.fee ≤ fee))
      (later : Accepts b terms charged r left before.estimate.fee before.inputs before.spare) :
      Accepts b terms charged r (left + 1) fee inputs spare

/-- Rounds end well just where one of them is accepted. -/
theorem rounds_ok_iff {terms : Terms} {left : Nat} {fee : Amount} {balanced : Balanced} :
    b.rounds terms left fee inputs spare = .ok balanced ↔
      ∃ charged r, Accepts b terms charged r left fee inputs spare ∧
        balanced = ⟨r.tx, r.inputs⟩ := by
  constructor
  · intro h
    induction left generalizing fee inputs spare with
    | zero => cases h
    | succ left ih =>
      rw [rounds] at h
      obtain ⟨before, ran, h⟩ := bind_ok h
      split at h
      · rename_i covered
        obtain ⟨fits, same⟩ := accept_ok (mapError_ok h)
        exact ⟨fee, before, .last ran ⟨covered, fits⟩, same⟩
      · rename_i short
        obtain ⟨charged, r, later, same⟩ := ih h
        exact ⟨charged, r, .next ran short later, same⟩
  · rintro ⟨charged, r, accepts, rfl⟩
    induction accepts with
    | last ran accepted =>
      have fits : b.accept r = .ok ⟨r.tx, r.inputs⟩ := if_neg (not_lt.2 accepted.fits)
      rw [rounds, bind_of_ok ran, if_pos accepted.covered, fits]
      rfl
    | next ran short _ ih =>
      rw [rounds, bind_of_ok ran, if_neg short]
      exact ih

namespace Accepts

variable {terms : Terms} {charged fee : Amount} {r : Round} {left : Nat}

theorem round (accepts : Accepts b terms charged r left fee inputs spare) :
    Accepted b charged r ∧ ∃ inputs spare, b.round terms charged inputs spare = .ok r := by
  induction accepts with
  | last ran accepted => exact ⟨accepted, _, _, ran⟩
  | next _ _ _ ih => exact ih

theorem apart (accepts : Accepts b terms charged r left fee inputs spare)
    (apart : Apart inputs spare) :
    Apart r.inputs r.spare ∧ inputs ⊆ r.inputs ∧ r.inputs ⊆ inputs ++ spare := by
  induction accepts with
  | last ran _ =>
    obtain ⟨_, stillApart, grown, within, _⟩ := round_ok ran apart
    exact ⟨stillApart, grown, within⟩
  | next ran _ _ ih =>
    obtain ⟨_, stillApart, grown, within, shrunk⟩ := round_ok ran apart
    obtain ⟨lastApart, more, inside⟩ := ih stillApart
    refine ⟨lastApart, List.Subset.trans grown more, List.Subset.trans inside ?_⟩
    exact List.append_subset.2 ⟨within, List.subset_append_of_subset_right _ shrunk⟩

/-- What is spare is the pool without the inputs, from round to round. -/
theorem spare_eq {pool : List Utxo} (accepts : Accepts b terms charged r left fee inputs spare)
    (rest : spare = withoutRefs pool inputs) : r.spare = withoutRefs pool r.inputs := by
  have kept {fee : Amount} {inputs spare : List Utxo} {r : Round}
      (rest : spare = withoutRefs pool inputs) (ran : b.round terms fee inputs spare = .ok r) :
      r.spare = withoutRefs pool r.inputs := by
    obtain ⟨_, _, _, found, taken, left, _⟩ := ran_of_round ran
    rw [taken, left]
    exact spare_of_fund rest found
  induction accepts with
  | last ran _ => exact kept rest ran
  | next ran _ _ ih => exact ih (kept rest ran)

/-- A fixed fee is charged in the first round. -/
theorem charged_of_fixed (accepts : Accepts b terms charged r left fee inputs spare)
    (fixed : b.fixedFee.isSome) : charged = fee := by
  cases accepts with
  | last => rfl
  | next _ short _ => exact absurd (.inl fixed) short

end Accepts

/-! ### Balancing -/

/-- The terms of a draft. -/
structure Terms.Of (b : Balancer) (draft : Draft) (terms : Terms) : Prop where
  same : terms.draft = draft
  scriptCost : Fee.scripts draft.totalExUnits b.params = .ok terms.scriptCost
  extraSupply : draft.extraSupply b.params = .ok terms.extraSupply
  baseDemand : draft.baseDemand b.params = .ok terms.baseDemand

theorem balance_ok_iff {draft : Draft} {balanced : Balanced} :
    b.balance draft inputs = .ok balanced ↔
      ∃ terms first charged r, Terms.Of b draft terms ∧ b.firstFee terms inputs = .ok first ∧
        Accepts b terms charged r b.maxFeeRounds.toNat first inputs (withoutRefs b.pool inputs) ∧
        balanced = ⟨r.tx, r.inputs⟩ := by
  constructor
  · intro h
    obtain ⟨scriptCost, priced, h⟩ := bind_ok h
    obtain ⟨extraSupply, supplied, h⟩ := bind_ok h
    obtain ⟨baseDemand, demanded, h⟩ := bind_ok h
    obtain ⟨first, firstFee, h⟩ := bind_ok h
    obtain ⟨charged, r, accepts, same⟩ := rounds_ok_iff.1 h
    exact ⟨_, first, charged, r, ⟨rfl, priced, supplied, demanded⟩, mapError_ok firstFee, accepts,
      same⟩
  · rintro ⟨⟨_, _, _, _⟩, first, charged, r, ⟨rfl, priced, supplied, demanded⟩, firstFee, accepts,
      same⟩
    refine (bind_of_ok priced).trans ((bind_of_ok supplied).trans ((bind_of_ok demanded).trans ?_))
    dsimp only
    rw [firstFee]
    exact rounds_ok_iff.2 ⟨charged, r, accepts, same⟩

theorem balance_ok {draft : Draft} {balanced : Balanced} (h : b.balance draft inputs = .ok balanced)
    (given : (inputs.map Utxo.ref).Nodup) (distinct : (b.pool.map Utxo.ref).Nodup) :
    ∃ terms fee demand change r, Terms.Of b draft terms ∧ Ran b terms fee demand change r ∧
      Accepted b fee r ∧ balanced = ⟨r.tx, r.inputs⟩ ∧ (r.inputs.map Utxo.ref).Nodup ∧
      inputs ⊆ r.inputs ∧ r.inputs ⊆ inputs ++ b.pool := by
  obtain ⟨terms, _, fee, r, of, _, accepts, rfl⟩ := balance_ok_iff.1 h
  obtain ⟨accepted, _, _, round⟩ := accepts.round
  obtain ⟨demand, funded, _, _, _, _, ran⟩ := ran_of_round round
  obtain ⟨apart, grown, within⟩ := accepts.apart (apart_withoutRefs given distinct)
  refine ⟨terms, fee, demand, funded.change, r, of, ran, accepted, rfl, apart.nodup_inputs, grown,
    List.Subset.trans within ?_⟩
  exact List.append_subset.2 ⟨List.subset_append_left _ _,
    List.subset_append_of_subset_right _ (withoutRefs_sublist b.pool inputs).subset⟩

theorem balance_assembles {draft : Draft} {balanced : Balanced}
    (h : b.balance draft inputs = .ok balanced) :
    ∃ chosen change charged,
      draft.assemble chosen change charged b.params.costModels = .ok balanced.tx := by
  obtain ⟨terms, _, _, r, of, _, accepts, rfl⟩ := balance_ok_iff.1 h
  obtain ⟨_, _, _, round⟩ := accepts.round
  obtain ⟨_, _, _, _, _, _, ran⟩ := ran_of_round round
  exact ⟨_, _, _, of.same ▸ ran.assembled⟩

end ConwayTx.Balancer
