import ConwayTx.BuilderConfig
import ConwayTx.Change
import ConwayTx.Fee
import ConwayTx.Selection

/-!
# Balancing

The fee depends on the size, the size on the change, and the change on the fee. `Balancer.balance`
goes round until the fee stops growing, and takes outputs from the pool when the inputs fall short.
Each step of `fund` takes at least one output that was not taken before.
-/

namespace ConwayTx

structure Balanced where
  tx : Transaction
  /-- Spending inputs in the order they were taken. -/
  inputs : List Utxo

structure Balancer where
  params : ProtocolParams
  maxFeeRounds : UInt64
  pool : List Utxo
  changeAddress : Address
  /-- An exact fee; nothing is estimated then. -/
  fixedFee : Option Amount
  feePadding : Amount

namespace Balancer

/-- The pool without the outputs of some references. -/
def withoutRefs (pool taken : List Utxo) : List Utxo :=
  pool.filter fun u => !taken.any (·.ref = u.ref)

theorem length_withoutRefs_lt {pool picks : List Utxo} (nonempty : picks ≠ []) (sub : picks ⊆ pool) :
    (withoutRefs pool picks).length < pool.length := by
  obtain ⟨u, mem⟩ := List.exists_mem_of_ne_nil picks nonempty
  exact List.length_filter_lt_length_iff_exists.2 ⟨u, sub mem, by
    simp only [Bool.not_eq_true, Bool.not_eq_false', List.any_eq_true]
    exact ⟨u, mem, by simp⟩⟩

/-- One look at the inputs: they settle with some change, or more are taken. -/
inductive FundStep (spare : List Utxo) where
  | settled (change : Change)
  | take (picks : List Utxo) (nonempty : picks ≠ []) (sub : picks ⊆ spare)

/-- Takes the picks; `otherwise` stands where there are none. -/
def takeOr {spare : List Utxo} (otherwise : Except Failure (FundStep spare)) (picks : List Utxo)
    (sub : picks ⊆ spare) : Except Failure (FundStep spare) :=
  if empty : picks = [] then otherwise else .ok (.take picks empty sub)

/-- Picks for a requirement; `recover` answers when there are not enough. -/
def takeFor {spare : List Utxo} (pool : List Utxo) (within : pool ⊆ spare)
    (required committed : Value) (recover : Failure → Except Failure (FundStep spare))
    (otherwise : Except Failure (FundStep spare)) : Except Failure (FundStep spare) :=
  match found : Selection.selectFrom (Selection.ranked pool) required committed with
  | .error e => recover e
  | .ok picks =>
    takeOr otherwise picks fun _ mem =>
      within (Selection.subset_ranked pool (Selection.subset_of_selectFrom found mem))

/-- A transaction needs an input, whatever it spends. -/
def takeFirst (spare : List Utxo) (supply demand : Value) : Except Failure (FundStep spare) :=
  match found : Selection.ranked spare with
  | [] => .error (.refused (.insufficientFunds demand.coin supply.coin))
  | u :: _ =>
    .ok (.take [u] (by simp) (by
      simpa using Selection.subset_ranked spare (by rw [found]; exact .head _)))

def takeDemand (spare : List Utxo) (supply demand : Value) : Except Failure (FundStep spare) :=
  takeFor spare (List.Subset.refl _) demand supply .error
    (.error (.refused (.insufficientFunds demand.coin supply.coin)))

def takeShortfall (spare : List Utxo) (shortfall : Amount) : Except Failure (FundStep spare) :=
  let unfunded : Except Failure (FundStep spare) := .error (.refused (.noUtxosForChange shortfall))
  takeFor spare (List.Subset.refl _) (.ofCoin shortfall) (.ofCoin 0)
    (fun
      | .refused (.insufficientFunds ..) => unfunded
      | e => .error e)
    unfunded

/-- Dust is lifted to an output with ADA-only outputs of the pool, if those can do it. -/
def takeDust (b : Balancer) (spare : List Utxo) (change : Change) :
    Except Failure (FundStep spare) :=
  let settled : Except Failure (FundStep spare) := .ok (.settled change)
  match (Change.output b.changeAddress (.ofCoin change.dust)).minCoin b.params.coinsPerUtxoByte with
  | .error e => .error (.refused (.ofEncodeError e))
  | .ok required =>
    let shortfall := Amount.clamp (required.toNat - change.dust.toNat)
    takeFor (spare.filter Utxo.isAdaOnly) (fun _ mem => (List.mem_filter.1 mem).1) (.ofCoin shortfall) (.ofCoin 0)
      (fun
        | .refused (.insufficientFunds ..) => settled
        | e => .error e)
      settled

def supplyOf (extraSupply : Value) (inputs : List Utxo) : Except ValueError Value :=
  inputs.foldlM (fun supply u => supply.add u.value) extraSupply

def fundStep (b : Balancer) (extraSupply demand : Value) (inputs spare : List Utxo) :
    Except Failure (FundStep spare) :=
  match supplyOf extraSupply inputs with
  | .error e => .error (.refused (.value e))
  | .ok supply =>
    if inputs.isEmpty then takeFirst spare supply demand
    else if supply.covers demand then
      match supply.sub demand with
      | .error e => .error (.refused (.value e))
      | .ok left =>
        match Change.plan b.params b.changeAddress left with
        | .error e => .error (.refused (.ofEncodeError e))
        | .ok (.short shortfall) => takeShortfall spare shortfall
        | .ok (.payable change) =>
          if change.dust = 0 then .ok (.settled change) else takeDust b spare change
    else takeDemand spare supply demand

structure Funded where
  change : Change
  inputs : List Utxo
  /-- The pool without the inputs. -/
  spare : List Utxo

/-- Inputs that cover the demand and the minimum of their change. -/
def fund (b : Balancer) (extraSupply demand : Value) (inputs spare : List Utxo) :
    Except Failure Funded :=
  match fundStep b extraSupply demand inputs spare with
  | .error e => .error e
  | .ok (.settled change) => .ok ⟨change, inputs, spare⟩
  | .ok (.take picks nonempty sub) =>
    have := length_withoutRefs_lt nonempty sub
    fund b extraSupply demand (inputs ++ picks) (withoutRefs spare picks)
termination_by spare.length

/-! ### Fee rounds -/

/-- What stays the same from round to round. -/
structure Terms where
  draft : Draft
  scriptCost : Amount
  extraSupply : Value
  baseDemand : Value

def estimate (b : Balancer) (terms : Terms) (tx : Transaction) : Except EncodeError Fee.Estimate :=
  Fee.estimate b.params terms.scriptCost b.feePadding terms.draft.stakeWitnesses tx

/-- The first round's fee: the exact one, or the estimate without change. -/
def firstFee (b : Balancer) (terms : Terms) (inputs : List Utxo) : Except BuildError Amount :=
  match b.fixedFee with
  | some fee => .ok fee
  | none => do
    let tx ← terms.draft.assemble inputs [] 0 b.params.costModels
    return (← b.estimate terms tx).fee

structure Round where
  tx : Transaction
  estimate : Fee.Estimate
  inputs : List Utxo
  spare : List Utxo

/-- One transaction for a fee. Dust goes on top of the fee. -/
def round (b : Balancer) (terms : Terms) (fee : Amount) (inputs spare : List Utxo) :
    Except Failure Round := do
  let demand ← (terms.baseDemand.add (.ofCoin fee)).mapError fun e => Failure.refused (.value e)
  let funded ← b.fund terms.extraSupply demand inputs spare
  let finish : Except BuildError Round := do
    let charged := Amount.clamp (fee.toNat + funded.change.dust.toNat)
    let tx ← terms.draft.assemble funded.inputs funded.change.outputs charged b.params.costModels
    return ⟨tx, ← b.estimate terms tx, funded.inputs, funded.spare⟩
  finish

def accept (b : Balancer) (r : Round) : Except BuildError Balanced :=
  if b.params.maxTxSize.toNat < r.estimate.size then
    .error (.txTooLarge r.estimate.size b.params.maxTxSize)
  else .ok ⟨r.tx, r.inputs⟩

def rounds (b : Balancer) (terms : Terms) :
    Nat → Amount → List Utxo → List Utxo → Except Failure Balanced
  | 0, fee, _, _ => .error (.refused (.feeNotConverged b.maxFeeRounds fee))
  | left + 1, fee, inputs, spare => do
    let r ← b.round terms fee inputs spare
    if b.fixedFee.isSome ∨ r.estimate.fee ≤ fee then b.accept r
    else b.rounds terms left r.estimate.fee r.inputs r.spare

def balance (b : Balancer) (draft : Draft) (inputs : List Utxo) : Except Failure Balanced := do
  let scriptCost ← Fee.scripts draft.totalExUnits b.params
  let extraSupply ← draft.extraSupply b.params
  let baseDemand ← draft.baseDemand b.params
  let terms : Terms := { draft, scriptCost, extraSupply, baseDemand }
  let fee ← b.firstFee terms inputs
  b.rounds terms b.maxFeeRounds.toNat fee inputs (withoutRefs b.pool inputs)

end Balancer

end ConwayTx
