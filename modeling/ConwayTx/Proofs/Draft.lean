import ConwayTx.Draft
import ConwayTx.Proofs.Outcome
import ConwayTx.Proofs.Value.Funds

/-!
# Drafts

The sums that have to balance besides inputs, change and fee, and how each of them ends
(`totals_extraSupply`, `totals_baseDemand`); what `assemble` makes of a draft.
-/

namespace ConwayTx

open Outcome

/-! ### Mints and burns -/

namespace MultiAsset

theorem quantity_minted (m : MultiAsset) (policy : PolicyId) (name : AssetName) :
    m.minted.quantity policy name = max 0 (m.quantity policy name) := by
  rw [minted, Value.quantity_withAssets]
  refine quantity_mapValues m (g := max 0) rfl (fun names n => ?_) policy name
  rw [find?_keep names fun q => decide (0 < q)]
  by_cases above : 0 < (names.find? n).getD 0
  · rw [if_pos (by simpa using above)]
    omega
  · rw [if_neg (by simpa using above)]
    omega

theorem quantity_burned (m : MultiAsset) (policy : PolicyId) (name : AssetName) :
    m.burned.quantity policy name = max 0 (-(m.quantity policy name)) := by
  rw [burned, Value.quantity_withAssets]
  refine quantity_mapValues m (g := fun q => max 0 (-q)) rfl (fun names n => ?_) policy name
  rw [SortedMap.find?_mapValues, SortedMap.find?_filter]
  cases found : names.find? n with
  | none => rfl
  | some q =>
    by_cases below : q < 0
    · simp only [Option.filter, below, decide_true, if_true, Option.map_some, Option.getD_some]
      omega
    · simp only [Option.filter, below, decide_false, Bool.false_eq_true, if_false, Option.map_none,
        Option.getD_none, Option.getD_some]
      omega

end MultiAsset

/-! ### What a body moves besides inputs and outputs -/

namespace TxBody

def minted (b : TxBody) : Funds :=
  (0, fun asset => max 0 ((b.mint.getD ∅).quantity asset.1 asset.2))

def burned (b : TxBody) : Funds :=
  (0, fun asset => max 0 (-(b.mint.getD ∅).quantity asset.1 asset.2))

def withdrawn (b : TxBody) : Funds := .ofCoin (Amount.total b.withdrawals.values)

def refunded (params : ProtocolParams) (b : TxBody) : Funds :=
  .ofCoin (Amount.total (b.certificates.map (Certificate.refund params)))

def deposited (params : ProtocolParams) (b : TxBody) : Funds :=
  .ofCoin (Amount.total (b.certificates.map (Certificate.deposit params)))

end TxBody

theorem MultiAsset.funds_minted (m : MultiAsset) :
    m.minted.funds = (0, fun asset => max 0 (m.quantity asset.1 asset.2)) :=
  Prod.ext (congrArg UInt64.toNat (Value.coin_withAssets _ _))
    (funext fun asset => m.quantity_minted asset.1 asset.2)

theorem MultiAsset.funds_burned (m : MultiAsset) :
    m.burned.funds = (0, fun asset => max 0 (-(m.quantity asset.1 asset.2))) :=
  Prod.ext (congrArg UInt64.toNat (Value.coin_withAssets _ _))
    (funext fun asset => m.quantity_burned asset.1 asset.2)

/-! ### Sums of a draft -/

theorem funds_of_supplyFold {α : Type} {value : α → Value} {l : List α} {start sum : Value}
    (h : l.foldlM (fun sum a => sum.add (value a)) start = .ok sum) :
    sum.funds = start.funds + (l.map fun a => (value a).funds).sum := by
  have checked := Value.checked_foldlM value l start
  rw [h] at checked
  exact checked.funds

/-- How a total ends, where the amounts of each sum in `plain` are added up beforehand and no one
checks that a word holds them. -/
structure Totals (plain : List ℕ) (exact : Funds) (result : Except Failure Value) : Prop where
  funds : ∀ v, result = .ok v → v.funds = exact
  ok_iff : (∃ v, result = .ok v) ↔ exact.1 ≤ Amount.largest
  refused_iff : (∃ left right, result = .error (.refused (.value (.coinOverflow left right)))) ↔
    (∀ sum ∈ plain, sum ≤ Amount.largest) ∧ Amount.largest < exact.1
  overflow_iff : result = .error .overflow ↔ ∃ sum ∈ plain, Amount.largest < sum

namespace Totals

variable {plain : List ℕ} {exact : Funds}

theorem of_checked {x : Except ValueError Value} (h : Value.Checked exact x) :
    Totals [] exact (x.mapError fun e => .refused (.value e)) := by
  cases h with
  | @holds v same =>
    have fits := v.coin.toNat_le_largest
    have coin : v.coin.toNat = exact.1 := congrArg Prod.fst same
    refine ⟨?_, iff_of_true ⟨v, rfl⟩ (by omega), iff_of_false ?_ (by omega), ?_⟩
    · rintro _ ⟨⟩
      exact same
    · rintro ⟨left, right, failed⟩
      cases failed
    · simp [Except.mapError]
  | @overflows left right above =>
    refine ⟨?_, iff_of_false ?_ (by omega), iff_of_true ⟨left, right, rfl⟩ ?_, ?_⟩
    · intro v ok
      cases ok
    · rintro ⟨v, ok⟩
      cases ok
    · exact ⟨by simp, above⟩
    · simp [Except.mapError]

/-- One more sum that no one checks, of amounts that are part of the total. -/
theorem expect {amounts : List Amount} {rest : Amount → Except Failure Value}
    (part : Amount.total amounts ≤ exact.1)
    (totals : ∀ sum : Amount, sum.toNat = Amount.total amounts → Totals plain exact (rest sum)) :
    Totals (Amount.total amounts :: plain) exact
      (expectTotal (Amount.sum? amounts) >>= rest) := by
  cases fits : Amount.sum? amounts with
  | none =>
    have above : Amount.largest < Amount.total amounts := Amount.ofNat?_eq_none_iff.1 fits
    refine ⟨?_, iff_of_false ?_ (by omega), iff_of_false ?_ ?_, iff_of_true rfl ?_⟩
    · intro v ok
      cases ok
    · rintro ⟨v, ok⟩
      cases ok
    · rintro ⟨left, right, failed⟩
      cases failed
    · rintro ⟨within, _⟩
      have := within _ List.mem_cons_self
      omega
    · exact ⟨_, List.mem_cons_self, above⟩
  | some sum =>
    have same : sum.toNat = Amount.total amounts := Amount.ofNat?_eq_some_iff.1 fits
    have within : Amount.total amounts ≤ Amount.largest := same ▸ sum.toNat_le_largest
    obtain ⟨funds, ok, refused, overflow⟩ := totals sum same
    refine ⟨funds, ok, refused.trans ?_, overflow.trans ?_⟩
    · simp [within]
    · simp [within]

end Totals

namespace Draft

theorem totals_extraSupply (d : Draft) (params : ProtocolParams) :
    Totals [d.body.withdrawn.1, (d.body.refunded params).1]
      (d.body.minted + d.body.withdrawn + d.body.refunded params) (d.extraSupply params) := by
  refine .expect (Nat.le_add_right_of_le (Nat.le_add_left _ _)) fun withdrawn all => ?_
  refine .expect (Nat.le_add_left _ _) fun refunds all' => .of_checked ?_
  have first := Value.checked_add d.mint.minted (.ofCoin withdrawn)
  rw [MultiAsset.funds_minted, Value.funds_ofCoin, all] at first
  refine first.bind fun sum => ?_
  have last := Value.checked_add sum (.ofCoin refunds)
  rwa [Value.funds_ofCoin, all'] at last

theorem totals_baseDemand (d : Draft) (params : ProtocolParams) :
    Totals [(d.body.deposited params).1]
      (d.body.burned + d.body.deposited params + TxOutput.paid d.body.outputs)
      (d.baseDemand params) := by
  refine .expect (Nat.le_add_right_of_le (Nat.le_add_left _ _)) fun deposits all => .of_checked ?_
  have first := Value.checked_add d.mint.burned (.ofCoin deposits)
  rw [MultiAsset.funds_burned, Value.funds_ofCoin, all] at first
  exact first.bind fun sum => Value.checked_foldlM TxOutput.value d.body.outputs sum

theorem funds_of_extraSupply {d : Draft} {params : ProtocolParams} {supply : Value}
    (h : d.extraSupply params = .ok supply) :
    supply.funds = d.body.minted + d.body.withdrawn + d.body.refunded params :=
  (d.totals_extraSupply params).funds supply h

theorem funds_of_baseDemand {d : Draft} {params : ProtocolParams} {demand : Value}
    (h : d.baseDemand params = .ok demand) :
    demand.funds = d.body.burned + d.body.deposited params + TxOutput.paid d.body.outputs :=
  (d.totals_baseDemand params).funds demand h

theorem nonneg_extraSupply {d : Draft} {params : ProtocolParams} {supply : Value}
    (h : d.extraSupply params = .ok supply) : supply.NoNegative := by
  refine Value.noNegative_of_funds ?_
  rw [funds_of_extraSupply h]
  refine ⟨Nat.zero_le _, fun asset => ?_⟩
  show (0 : ℤ) ≤ max 0 _ + 0 + 0
  omega

/-- Both totals are exact or refused, except where withdrawals, refunds or deposits alone are too
many for a word. -/
theorem totals_exact (d : Draft) (params : ProtocolParams) :
    Totals [d.body.withdrawn.1, (d.body.refunded params).1]
        (d.body.minted + d.body.withdrawn + d.body.refunded params) (d.extraSupply params) ∧
      Totals [(d.body.deposited params).1]
        (d.body.burned + d.body.deposited params + TxOutput.paid d.body.outputs)
        (d.baseDemand params) :=
  ⟨d.totals_extraSupply params, d.totals_baseDemand params⟩

/-- Two withdrawals, and two deposits, that no word holds together are not refused. -/
theorem totals_unanswered :
    let half : Amount := 9223372036854775808
    let withdrawals : Withdrawals :=
      .ofList [(⟨.testnet, .key .zero⟩, half), (⟨.testnet, .script .zero⟩, half)]
    let certificates : List Certificate :=
      [.registration (.key .zero), .registration (.script .zero)]
    let withdrawing : Draft := { body := { withdrawals } }
    let registering : Draft := { body := { certificates } }
    let params : ProtocolParams := { keyDeposit := half }
    Amount.largest < (withdrawing.body.minted + withdrawing.body.withdrawn +
        withdrawing.body.refunded params).1 ∧
      (¬ ∃ left right, withdrawing.extraSupply params =
        .error (.refused (.value (.coinOverflow left right)))) ∧
      Amount.largest < (registering.body.burned + registering.body.deposited params +
        TxOutput.paid registering.body.outputs).1 ∧
      ¬ ∃ left right, registering.baseDemand params =
        .error (.refused (.value (.coinOverflow left right))) := by
  intro half withdrawals certificates withdrawing registering params
  have supply : withdrawing.extraSupply params = .error .overflow :=
    (totals_extraSupply _ _).overflow_iff.2 ⟨_, List.mem_cons_self, by decide +kernel⟩
  have demand : registering.baseDemand params = .error .overflow :=
    (totals_baseDemand _ _).overflow_iff.2 ⟨_, List.mem_cons_self, by decide +kernel⟩
  refine ⟨by decide +kernel, ?_, by decide +kernel, ?_⟩
  · rintro ⟨left, right, refused⟩
    rw [supply] at refused
    cases refused
  · rintro ⟨left, right, refused⟩
    rw [demand] at refused
    cases refused

/-! ### Assembly -/

/-- Inputs, change, fee, redeemers and the script data hash are what a draft lacks. -/
theorem assemble_ok {d : Draft} {inputs : List Utxo} {change : List TxOutput} {fee : Amount}
    {models : CostModels} {tx : Transaction} (h : d.assemble inputs change fee models = .ok tx) :
    let body := { d.body with
      inputs := d.body.inputs.addKeys (inputs.map Utxo.ref)
      outputs := d.body.outputs ++ change
      fee }
    tx.body = { body with scriptDataHash := tx.body.scriptDataHash } ∧
      (RedeemerLayout.ofBody body).assign d.redeemers = .ok tx.witnesses.redeemers ∧
      tx.witnesses = { d.witnesses with redeemers := tx.witnesses.redeemers } ∧
      tx.metadata = d.metadata ∧ tx.isValid = true := by
  obtain ⟨redeemers, assigned, h⟩ := bind_ok h
  obtain ⟨hash, _, h⟩ := bind_ok h
  obtain rfl := pure_ok h
  exact ⟨rfl, assigned, rfl, rfl, rfl⟩

end Draft

end ConwayTx
