import ConwayTx.Change
import ConwayTx.Proofs.Outcome
import ConwayTx.Proofs.Output.Convergence
import ConwayTx.Proofs.Value.Funds

/-!
# Change

A payable plan pays out all that is left over, except for the dust (`funds_of_plan`). Splitting
assets into bundles loses none of them, and bundles that lack nothing take all the lovelace. No output
of a plan is below its own minimum (`plain_of_plan`).
-/

namespace ConwayTx

open Outcome

theorem Amount.total_append (l₁ l₂ : List Amount) : total (l₁ ++ l₂) = total l₁ + total l₂ := by
  induction l₁ with
  | nil => exact (Nat.zero_add _).symm
  | cons a rest ih =>
    rw [List.cons_append, total, total, ih, Nat.add_assoc]

theorem Amount.le_total {a : Amount} {l : List Amount} (mem : a ∈ l) : a.toNat ≤ total l := by
  induction l with
  | nil => cases mem
  | cons b rest ih =>
    rw [total]
    rcases List.mem_cons.1 mem with rfl | later
    · exact Nat.le_add_right _ _
    · exact (ih later).trans (Nat.le_add_left _ _)

theorem TxOutput.coin_paid (outputs : List TxOutput) :
    (paid outputs).1 = Amount.total (outputs.map coin) := by
  induction outputs with
  | nil => rfl
  | cons o rest ih =>
    rw [paid_cons, Prod.fst_add, ih]
    rfl

namespace Change

/-! ### Bundles -/

/-- Quantities of an asset summed over values. -/
def quantityIn (policy : PolicyId) (name : AssetName) (values : List Value) : Int :=
  (values.map (·.quantity policy name)).sum

@[simp] theorem quantityIn_cons (policy : PolicyId) (name : AssetName) (v : Value)
    (values : List Value) : quantityIn policy name (v :: values) =
      v.quantity policy name + quantityIn policy name values := by
  simp [quantityIn]

/-- The value is written in so many bytes at most. -/
def Fits (limit : Nat) (v : Value) : Prop := ∃ size, valueSize v = .ok size ∧ size ≤ limit

/-- The value is written in more bytes. -/
def Exceeds (limit : Nat) (v : Value) : Prop := ∃ size, valueSize v = .ok size ∧ limit < size

theorem isTooLarge_ok {limit : Nat} {v : Value} {large : Bool} (h : isTooLarge limit v = .ok large) :
    if large then Exceeds limit v else Fits limit v := by
  obtain ⟨size, sized, h⟩ := bind_ok h
  have decided := pure_ok h
  cases large with
  | true => exact ⟨size, sized, of_decide_eq_true decided⟩
  | false => exact ⟨size, sized, not_lt.1 (of_decide_eq_false decided)⟩

/-- One asset joins the current bundle, or it closes one that has assets. -/
theorem bundleAssets_cons {limit : Nat} {coin : Amount} {current : Value} {policy : PolicyId}
    {name : AssetName} {q : Int} {rest : List (PolicyId × AssetName × Int)} {filled : List Value}
    (h : bundleAssets limit coin current ((policy, name, q) :: rest) = .ok filled) :
    ((current.hasAssets = true → Fits limit (current.addAsset policy name q)) ∧
      bundleAssets limit coin (current.addAsset policy name q) rest = .ok filled) ∨
    (current.hasAssets = true ∧ Exceeds limit (current.addAsset policy name q) ∧
      ∃ others, filled = current :: others ∧
        bundleAssets limit coin ((Value.ofCoin coin).addAsset policy name q) rest = .ok others) := by
  rw [bundleAssets] at h
  dsimp only at h
  split at h
  · rename_i has
    obtain ⟨large, measured, h⟩ := bind_ok h
    have size := isTooLarge_ok measured
    split at h
    · rename_i full
      rw [if_pos full] at size
      obtain ⟨others, run, h⟩ := bind_ok h
      exact .inr ⟨has, size, others, (pure_ok h).symm, run⟩
    · rename_i room
      rw [if_neg room] at size
      exact .inl ⟨fun _ => size, h⟩
  · rename_i none
    exact .inl ⟨fun has => absurd has none, h⟩

theorem ne_nil_of_bundleAssets {limit : Nat} {coin : Amount} {current : Value}
    {assets : List (PolicyId × AssetName × Int)} {filled : List Value}
    (h : bundleAssets limit coin current assets = .ok filled) : filled ≠ [] := by
  induction assets generalizing current filled with
  | nil =>
    cases h
    exact List.cons_ne_nil _ _
  | cons asset rest ih =>
    rcases bundleAssets_cons h with ⟨_, run⟩ | ⟨_, _, others, rfl, _⟩
    · exact ih run
    · exact List.cons_ne_nil _ _

/-- A new bundle starts without assets, so none of them is lost or counted twice. -/
theorem quantity_bundleAssets {limit : Nat} {coin : Amount} {current : Value}
    {assets : List (PolicyId × AssetName × Int)} {filled : List Value}
    (h : bundleAssets limit coin current assets = .ok filled) (policy : PolicyId)
    (name : AssetName) :
    quantityIn policy name filled =
      current.quantity policy name + MultiAsset.sumAt policy name id assets := by
  induction assets generalizing current filled with
  | nil =>
    cases h
    simp [quantityIn]
  | cons asset rest ih =>
    obtain ⟨p, n, q⟩ := asset
    have added (v : Value) : (v.addAsset p n q).quantity policy name =
        v.quantity policy name + if p = policy ∧ n = name then id q else 0 := by
      rw [Value.quantity_addAsset]
      simp only [eq_comm (a := policy), eq_comm (a := name), id]
    rw [MultiAsset.sumAt_cons]
    rcases bundleAssets_cons h with ⟨_, run⟩ | ⟨_, _, others, rfl, run⟩
    · rw [ih run, added, add_assoc]
    · rw [quantityIn_cons, ih run, added, Value.quantity_ofCoin, zero_add]

theorem coin_bundles {maxValueSize : UInt32} {change : Value} {parts : List Value}
    (h : bundles maxValueSize change = .ok parts) : ∀ part ∈ parts, part.coin = 0 := by
  obtain ⟨filled, _, h⟩ := bind_ok h
  obtain rfl := pure_ok h
  intro part mem
  obtain ⟨v, _, rfl⟩ := List.mem_map.1 mem
  rfl

theorem ne_nil_of_bundles {maxValueSize : UInt32} {change : Value} {parts : List Value}
    (h : bundles maxValueSize change = .ok parts) : parts ≠ [] := by
  obtain ⟨filled, run, h⟩ := bind_ok h
  obtain rfl := pure_ok h
  exact fun none => ne_nil_of_bundleAssets run (List.map_eq_nil_iff.1 none)

theorem quantity_bundles {maxValueSize : UInt32} {change : Value} {parts : List Value}
    (sound : change.NoNegative) (h : bundles maxValueSize change = .ok parts) (policy : PolicyId)
    (name : AssetName) : quantityIn policy name parts = change.quantity policy name := by
  obtain ⟨filled, run, h⟩ := bind_ok h
  cases h
  have same : quantityIn policy name (filled.map Value.assetsOnly) =
      quantityIn policy name filled := by
    rw [quantityIn, List.map_map]
    rfl
  have nonneg : 0 ≤ change.bundle.quantity policy name := sound policy name
  rw [same, quantity_bundleAssets run, Value.quantity_ofCoin, zero_add, Value.positive,
    MultiAsset.sumAt_positive]
  show (if 0 < change.bundle.quantity policy name then _ else _) = change.bundle.quantity policy name
  split
  · rfl
  · omega

/-! ### Outputs for the bundles -/

/-- Outputs for the bundles take the lovelace in turn: each its least admissible coin, and the last
what the others leave. -/
structure Placed (address : Address) (coinsPerByte remaining : Amount) (parts : List Value)
    (before : List TxOutput) (last : TxOutput) (required : Amount) : Prop where
  bundles : ∀ coin, (before ++ [last]).map (·.withCoin coin) =
    parts.map fun part => (output address part).withCoin coin
  least : ∀ o ∈ before, (o.withCoin 0).LeastRaise coinsPerByte o
  rest : last.coin.toNat = remaining.toNat - Amount.total (before.map TxOutput.coin)
  minimum : last.minCoin coinsPerByte = .ok required

/-- The shortfalls on the way add up to what all minimums are above the lovelace. -/
theorem placed_of_placeBundles {address : Address} {coinsPerByte remaining lacking : Amount}
    {parts : List Value} {outputs : List TxOutput}
    (h : placeBundles address coinsPerByte remaining parts = .ok (outputs, lacking))
    (nonempty : parts ≠ []) (empty : ∀ part ∈ parts, part.coin = 0) :
    ∃ before last required, outputs = before ++ [last] ∧
      Placed address coinsPerByte remaining parts before last required ∧
      lacking = Amount.clamp (Amount.total (before.map TxOutput.coin) + required.toNat -
        remaining.toNat) := by
  fun_induction placeBundles address coinsPerByte remaining parts generalizing outputs lacking with
  | case1 => exact absurd rfl nonempty
  | case2 remaining last =>
    obtain ⟨required, minimum, h⟩ := bind_ok h
    cases h
    refine ⟨[], _, required, rfl, ⟨fun _ => rfl, List.forall_mem_nil _, rfl, minimum⟩, ?_⟩
    rw [List.map_nil, Amount.total, Nat.zero_add]
  | case3 remaining bundle others more ih =>
    obtain ⟨o, raised, h⟩ := bind_ok h
    obtain ⟨⟨placed, short⟩, run, h⟩ := bind_ok h
    cases h
    have least := TxOutput.raiseToMinimum_least raised
    have bare : (output address bundle).withCoin 0 = output address bundle := by
      rw [← empty bundle (.head _)]
      rfl
    have alike (coin : Amount) : o.withCoin coin = (output address bundle).withCoin coin := by
      rw [least.same]
      rfl
    obtain ⟨before, last, required, rfl, ⟨bundles, leasts, rest, minimum⟩, rfl⟩ :=
      ih o run (by simpa using more) fun part mem => empty part (.tail _ mem)
    have small := Amount.toNat_le_largest remaining
    rw [Amount.toNat_clamp] at rest
    refine ⟨o :: before, last, required, rfl, ⟨fun coin => ?_, ?_, ?_, minimum⟩, ?_⟩
    · rw [List.cons_append, List.map_cons, List.map_cons, bundles, alike]
    · refine List.forall_mem_cons.2 ⟨?_, leasts⟩
      rw [alike, bare]
      exact least
    · rw [List.map_cons, Amount.total]
      omega
    · apply UInt64.toNat_inj.1
      rw [List.map_cons, Amount.total, Amount.toNat_clamp, Amount.toNat_clamp, Amount.toNat_clamp,
        Amount.toNat_clamp]
      omega

namespace Placed

variable {address : Address} {coinsPerByte remaining required : Amount} {parts : List Value}
  {before : List TxOutput} {last : TxOutput}

theorem assets (placed : Placed address coinsPerByte remaining parts before last required)
    (policy : PolicyId) (name : AssetName) :
    (TxOutput.paid (before ++ [last])).2 (policy, name) = quantityIn policy name parts := by
  have sums (outputs : List TxOutput) : (TxOutput.paid outputs).2 (policy, name) =
      ((outputs.map (·.withCoin 0)).map fun o => o.value.quantity policy name).sum := by
    induction outputs with
    | nil => rfl
    | cons o rest ih =>
      rw [TxOutput.paid_cons, Prod.snd_add, Pi.add_apply, ih]
      rfl
  rw [sums, placed.bundles 0, List.map_map]
  rfl

/-- Where the lovelace suffices, it is all paid out. -/
theorem coin (placed : Placed address coinsPerByte remaining parts before last required)
    (enough : Amount.total (before.map TxOutput.coin) + required.toNat ≤ remaining.toNat) :
    (TxOutput.paid (before ++ [last])).1 = remaining.toNat := by
  have rest := placed.rest
  rw [TxOutput.coin_paid, List.map_append, Amount.total_append]
  show _ + (last.coin.toNat + 0) = _
  omega

theorem plain (placed : Placed address coinsPerByte remaining parts before last required) :
    ∀ o ∈ before ++ [last], o.address = address ∧ o.datum = none ∧ o.script = none := by
  intro o mem
  have same : o.withCoin 0 ∈ parts.map fun part => (output address part).withCoin 0 := by
    rw [← placed.bundles 0]
    exact List.mem_map.2 ⟨o, mem, rfl⟩
  obtain ⟨part, _, built⟩ := List.mem_map.1 same
  obtain ⟨address, _, datum, script⟩ := TxOutput.mk.inj built
  exact ⟨address.symm, datum.symm, script.symm⟩

theorem admissible (placed : Placed address coinsPerByte remaining parts before last required)
    (enough : Amount.total (before.map TxOutput.coin) + required.toNat ≤ remaining.toNat) :
    ∀ o ∈ before ++ [last], o.Admissible coinsPerByte := by
  have rest := placed.rest
  refine List.forall_mem_append.2 ⟨fun o mem => (placed.least o mem).admissible, ?_⟩
  refine List.forall_mem_singleton.2 ⟨required, placed.minimum, ?_⟩
  rw [UInt64.le_iff_toNat_le]
  omega

/-- Each output but the last holds its own minimum. -/
theorem minima (placed : Placed address coinsPerByte remaining parts before last required) :
    (before ++ [last]).mapM (TxOutput.minCoin coinsPerByte) =
      .ok (before.map TxOutput.coin ++ [required]) := by
  have early : before.mapM (TxOutput.minCoin coinsPerByte) = .ok (before.map TxOutput.coin) :=
    mapM_of_ok TxOutput.coin fun o mem => (placed.least o mem).minCoin rfl
  have late : [last].mapM (TxOutput.minCoin coinsPerByte) = .ok [required] := by
    rw [List.mapM_cons, placed.minimum]
    rfl
  exact mapM_append_ok early late

end Placed

/-! ### Plans -/

theorem plan_of_not_hasAssets (params : ProtocolParams) (address : Address) {left : Value}
    (none : ¬ left.hasAssets = true) :
    plan params address left = planCoin address params.coinsPerUtxoByte left.coin :=
  if_neg none

/-- With assets, a plan is payable unless the minimums of its outputs ask for more lovelace. -/
theorem plan_cases {params : ProtocolParams} {address : Address} {left : Value} {p : Plan}
    (has : left.hasAssets = true) (h : plan params address left = .ok p) :
    ∃ parts before last required, bundles params.maxValueSize left = .ok parts ∧
      Placed address params.coinsPerUtxoByte left.coin parts before last required ∧
      ((Amount.total (before.map TxOutput.coin) + required.toNat ≤ left.coin.toNat ∧
          p = .payable ⟨before ++ [last], 0⟩) ∨
        (left.coin.toNat < Amount.total (before.map TxOutput.coin) + required.toNat ∧
          p = .short (Amount.clamp (Amount.total (before.map TxOutput.coin) + required.toNat -
            left.coin.toNat)))) := by
  unfold plan at h
  rw [if_pos has] at h
  obtain ⟨parts, split, h⟩ := bind_ok h
  obtain ⟨⟨outputs, lacking⟩, run, h⟩ := bind_ok h
  obtain ⟨before, last, required, rfl, placed, rfl⟩ :=
    placed_of_placeBundles run (ne_nil_of_bundles split) (coin_bundles split)
  refine ⟨parts, before, last, required, split, placed, ?_⟩
  have large : 0 < Amount.largest := by decide
  have zero : (0 : Amount).toNat = 0 := rfl
  have decided := pure_ok h
  by_cases enough : Amount.total (before.map TxOutput.coin) + required.toNat ≤ left.coin.toNat
  · have nothing : Amount.clamp (Amount.total (before.map TxOutput.coin) + required.toNat -
        left.coin.toNat) = 0 := by
      apply UInt64.toNat_inj.1
      rw [Amount.toNat_clamp]
      omega
    rw [if_pos nothing] at decided
    exact .inl ⟨enough, decided.symm⟩
  · have something : Amount.clamp (Amount.total (before.map TxOutput.coin) + required.toNat -
        left.coin.toNat) ≠ 0 := fun nothing => by
      have same := congrArg UInt64.toNat nothing
      rw [Amount.toNat_clamp] at same
      omega
    rw [if_neg something] at decided
    exact .inr ⟨not_le.1 enough, decided.symm⟩

/-- What is lacking is more than nothing. -/
theorem short_pos {params : ProtocolParams} {address : Address} {left : Value} {lacking : Amount}
    (h : plan params address left = .ok (.short lacking)) : 0 < lacking := by
  by_cases has : left.hasAssets = true
  · obtain ⟨_, _, _, _, _, _, ⟨_, same⟩ | ⟨more, same⟩⟩ := plan_cases has h <;> cases same
    have large : 0 < Amount.largest := by decide
    rw [UInt64.lt_iff_toNat_lt, Amount.toNat_clamp]
    show 0 < _
    omega
  · rw [plan_of_not_hasAssets params address has] at h
    unfold planCoin at h
    split at h
    · cases h
    · obtain ⟨required, _, h⟩ := bind_ok h
      split at h <;> cases h

theorem funds_of_planCoin {address : Address} {coinsPerByte coin : Amount} {change : Change}
    (h : planCoin address coinsPerByte coin = .ok (.payable change)) :
    TxOutput.paid change.outputs + Funds.ofCoin change.dust.toNat = Funds.ofCoin coin.toNat := by
  unfold planCoin at h
  split at h
  · rename_i none
    cases h
    rw [none]
    rfl
  · obtain ⟨required, _, h⟩ := bind_ok h
    split at h
    · cases h
      simp
    · cases h
      simp [TxOutput.paid, output, Funds.ofCoin]

/-- A plan that can be paid gives all lovelace out, be it as dust. -/
theorem coin_of_plan {params : ProtocolParams} {address : Address} {left : Value} {change : Change}
    (h : plan params address left = .ok (.payable change)) :
    (TxOutput.paid change.outputs).1 + change.dust.toNat = left.coin.toNat := by
  by_cases has : left.hasAssets = true
  · obtain ⟨_, _, _, _, _, placed, ⟨enough, same⟩ | ⟨_, same⟩⟩ := plan_cases has h <;> cases same
    exact placed.coin enough
  · rw [plan_of_not_hasAssets params address has] at h
    exact congrArg Prod.fst (funds_of_planCoin h)

/-- Only lovelace without assets can be too little for an output. -/
theorem dust_of_plan {params : ProtocolParams} {address : Address} {left : Value} {change : Change}
    (h : plan params address left = .ok (.payable change)) :
    change.dust.toNat ≤ left.coin.toNat := by
  have total := coin_of_plan h
  omega

/-- A plan that can be paid loses nothing of what is left over. -/
theorem funds_of_plan {params : ProtocolParams} {address : Address} {left : Value} {change : Change}
    (sound : left.NoNegative) (h : plan params address left = .ok (.payable change)) :
    TxOutput.paid change.outputs + Funds.ofCoin change.dust.toNat = left.funds := by
  refine Prod.ext (coin_of_plan h) (funext fun asset => ?_)
  show (TxOutput.paid change.outputs).2 asset + 0 = left.quantity asset.1 asset.2
  rw [add_zero]
  by_cases has : left.hasAssets = true
  · obtain ⟨_, _, _, _, split, placed, ⟨_, same⟩ | ⟨_, same⟩⟩ := plan_cases has h <;> cases same
    rw [← quantity_bundles sound split]
    exact placed.assets asset.1 asset.2
  · rw [plan_of_not_hasAssets params address has] at h
    have paid := congrFun (congrArg Prod.snd (funds_of_planCoin h)) asset
    have nothing : left.positive = [] := by simpa [Value.hasAssets] using has
    have bound : ¬ 0 < left.quantity asset.1 asset.2 := fun above => by
      have mem := Value.mem_positive.2 ⟨above, rfl⟩
      rw [nothing] at mem
      cases mem
    have none : left.quantity asset.1 asset.2 = 0 := le_antisymm (not_lt.1 bound) (sound _ _)
    rw [none]
    simpa [Funds.ofCoin] using paid

/-! ### Change outputs -/

/-- To the address, with nothing but a value that it can hold. -/
structure Plain (address : Address) (coinsPerByte : Amount) (o : TxOutput) : Prop where
  address : o.address = address
  datum : o.datum = none
  script : o.script = none
  admissible : o.Admissible coinsPerByte

theorem plain_of_planCoin {address : Address} {coinsPerByte coin : Amount} {change : Change}
    (h : planCoin address coinsPerByte coin = .ok (.payable change)) :
    ∀ o ∈ change.outputs, Plain address coinsPerByte o := by
  unfold planCoin at h
  split at h
  · cases h
    exact List.forall_mem_nil _
  · obtain ⟨required, minimum, h⟩ := bind_ok h
    split at h
    · cases h
      exact List.forall_mem_nil _
    · rename_i enough
      cases h
      refine List.forall_mem_singleton.2 ⟨rfl, rfl, rfl, required, minimum, ?_⟩
      exact UInt64.not_lt.1 enough

theorem plain_of_plan {params : ProtocolParams} {address : Address} {left : Value} {change : Change}
    (h : plan params address left = .ok (.payable change)) :
    ∀ o ∈ change.outputs, Plain address params.coinsPerUtxoByte o := by
  by_cases has : left.hasAssets = true
  · obtain ⟨_, before, last, _, _, placed, ⟨enough, same⟩ | ⟨_, same⟩⟩ :=
      plan_cases has h <;> cases same
    intro o mem
    obtain ⟨sent, datum, script⟩ := placed.plain o mem
    exact ⟨sent, datum, script, placed.admissible enough o mem⟩
  · rw [plan_of_not_hasAssets params address has] at h
    exact plain_of_planCoin h

end Change

end ConwayTx
