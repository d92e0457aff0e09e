import ConwayTx.Proofs.Balance.Conservation
import ConwayTx.Proofs.Balance.Dust
import ConwayTx.Proofs.Balance.Orphans
import ConwayTx.Proofs.Fee
import ConwayTx.Proofs.Transaction.Weight

/-!
# Fee rounds come to an end

While the inputs stay and the change keeps its shape, what a round adds to the fee it takes from the
change. Without an output the sum is all that is charged, and the second round repeats the first.
With one, a round that does not suffice has a wider fee than the one before; fees that widen twice
are far apart, and the transaction without change is too large for that (`balance_converges`).
-/

namespace ConwayTx

open Outcome

/-! ### Prices -/

theorem ProtocolParams.sizeFee_le_ten_mul (params : ProtocolParams) {small large : Nat}
    (le : large ≤ 10 * small) :
    (params.sizeFee large).toNat ≤ 10 * (params.sizeFee small).toNat := by
  have bytes := Nat.mul_le_mul_right params.minFeePerByte.toNat le
  rw [Nat.mul_assoc] at bytes
  rw [sizeFee, sizeFee, Amount.toNat_clamp, Amount.toNat_clamp]
  omega

theorem Fee.price_le_ten_mul {params : ProtocolParams} {scriptCost padding : Amount}
    {small large : Nat} (le : large ≤ 10 * small) :
    (price params scriptCost padding large).toNat ≤
      10 * (price params scriptCost padding small).toNat := by
  have sizes := params.sizeFee_le_ten_mul le
  rw [price, price, Amount.toNat_clamp, Amount.toNat_clamp]
  omega

theorem Fee.size_lt_of_price {params : ProtocolParams} {scriptCost padding : Amount}
    {small large : Nat}
    (lt : price params scriptCost padding small < price params scriptCost padding large) :
    small < large := by
  by_contra le
  exact UInt64.not_le.2 lt (price_mono (Nat.not_lt.1 le))

/-! ### Shapes of change -/

namespace Change

def IsNone (change : Change) : Prop := change.outputs = []

/-- One output with nothing but lovelace. -/
def IsSingle (change : Change) : Prop := ∃ o, change.outputs = [o] ∧ o.value.hasAssets = false

variable {params : ProtocolParams} {address : Address} {left : Value} {change : Change}

/-- Without an output everything is dust. -/
theorem IsNone.dust (none : change.IsNone)
    (h : plan params address left = .ok (.payable change)) : change.dust = left.coin := by
  have total := coin_of_plan h
  rw [none] at total
  exact UInt64.toNat_inj.1 ((Nat.zero_add _).symm.trans total)

/-- A single output takes all lovelace. -/
theorem coin_of_single {o : TxOutput} (single : change.outputs = [o])
    (h : plan params address left = .ok (.payable change)) :
    change.dust = 0 ∧ o.coin = left.coin := by
  have dust : change.dust = 0 := by
    by_contra some
    rw [(dust_below h some).1] at single
    cases single
  have total := coin_of_plan h
  rw [dust, single] at total
  exact ⟨dust, UInt64.toNat_inj.1 total⟩

end Change

/-! ### Assembling with other change -/

theorem Draft.assemble_other {d : Draft} {inputs : List Utxo} {change : List TxOutput} {fee : Amount}
    {models : CostModels} {tx : Transaction} (h : d.assemble inputs change fee models = .ok tx)
    (change' : List TxOutput) (fee' : Amount) :
    d.assemble inputs change' fee' models = .ok (tx.paying (d.body.outputs ++ change') fee') := by
  obtain ⟨redeemers, assigned, h⟩ := bind_ok h
  obtain ⟨hash, hashed, h⟩ := bind_ok h
  obtain rfl := pure_ok h
  have assigned' : (RedeemerLayout.ofBody { d.body with
      inputs := d.body.inputs.addKeys (inputs.map Utxo.ref)
      outputs := d.body.outputs ++ change'
      fee := fee' }).assign d.redeemers = .ok redeemers := assigned
  exact (bind_of_ok assigned').trans (bind_of_ok hashed)

theorem Draft.paying_of_assemble {d : Draft} {inputs : List Utxo} {change : List TxOutput}
    {fee : Amount} {models : CostModels} {tx : Transaction}
    (h : d.assemble inputs change fee models = .ok tx) :
    tx = tx.paying (d.body.outputs ++ change) fee :=
  Except.ok.inj (h.symm.trans (assemble_other h change fee))

/-- One signature at least is paid for. -/
theorem Fee.le_size_signedShape {tx : Transaction} {stakeWitnesses size : Nat}
    (h : (signedShape tx stakeWitnesses).size = .ok size) : 101 ≤ size := by
  have keys := Transaction.keys_le_size h
  have count : (signedShape tx stakeWitnesses).witnesses.keys.length =
      signatures tx stakeWitnesses := List.length_replicate
  rw [count, signatures] at keys
  omega

namespace Balancer

variable {b : Balancer} {terms : Terms} {given : List Utxo}

/-! ### What is left over -/

/-- What is left over goes down as the fee goes up. -/
theorem Ran.exists_left {fee : Amount} {demand : Value} {change : Change} {r : Round}
    (ran : Ran b terms fee demand change r) :
    ∃ supply left, supplyOf terms.extraSupply r.inputs = .ok supply ∧
      Change.plan b.params b.changeAddress left = .ok (.payable change) ∧
      fee.toNat + left.coin.toNat + terms.baseDemand.coin.toNat = supply.coin.toNat := by
  obtain ⟨_, supply, left, supplied, difference, planned⟩ := ran.settles
  have demanded := congrArg Prod.fst (Value.funds_add ran.demanded)
  have taken := congrArg Prod.fst (Value.funds_sub difference)
  simp only [Prod.fst_add, Value.funds, Value.ofCoin] at demanded taken
  exact ⟨supply, left, supplied, planned, by omega⟩

/-- Without a spare output nothing is taken. -/
theorem fund_nil {extraSupply demand : Value} {inputs : List Utxo} {funded : Funded}
    (h : b.fund extraSupply demand inputs [] = .ok funded) :
    funded.inputs = inputs ∧ funded.spare = [] := by
  rw [fund] at h
  split at h
  · cases h
  · cases h
    exact ⟨rfl, rfl⟩
  · rename_i picks nonempty sub _
    exact absurd (List.subset_nil.1 sub) nonempty

/-! ### Sizes of rounds -/

/-- The first fee is the price of the transaction without change. The size of a round adds its
change and its fee. -/
structure Bare (b : Balancer) (terms : Terms) (given : List Utxo) (rest : Nat) (outs : List Cbor) :
    Prop where
  first : ∀ fee, b.firstFee terms given = .ok fee → ∃ size,
    fee = Fee.price b.params terms.scriptCost b.feePadding size ∧
      size = rest + (Cbor.array outs).length + 1 ∧ 101 ≤ size
  round : ∀ fee demand change r items, Ran b terms fee demand change r → r.inputs = given →
    change.outputs.mapM TxOutput.toCbor = .ok items →
      r.estimate.fee = Fee.price b.params terms.scriptCost b.feePadding
        (rest + (Cbor.array (outs ++ items)).length +
          Cbor.headLength (Amount.clamp (fee.toNat + change.dust.toNat)).toNat)

theorem exists_bare {fee : Amount} (free : b.fixedFee = none)
    (priced : b.firstFee terms given = .ok fee) : ∃ rest outs, Bare b terms given rest outs := by
  have priced' := priced
  rw [firstFee, free] at priced
  obtain ⟨bare, assembled, priced⟩ := bind_ok priced
  obtain ⟨e, estimated, priced⟩ := bind_ok priced
  obtain ⟨sized, charged⟩ := Fee.estimate_ok (mapError_ok estimated)
  obtain ⟨rest, weighs⟩ := Transaction.exists_weighs sized
  obtain ⟨body, _, bodyOk, _⟩ := Transaction.size_ok sized
  obtain ⟨outs, _, _, written, _⟩ := TxBody.toCbor_ok bodyOk
  have plain : bare = bare.paying terms.draft.body.outputs 0 := by
    have same := Draft.paying_of_assemble assembled
    rwa [List.append_nil] at same
  have outputs : bare.body.outputs = terms.draft.body.outputs := congrArg (·.body.outputs) plain
  replace written : terms.draft.body.outputs.mapM TxOutput.toCbor = .ok outs := outputs ▸ written
  refine ⟨rest, outs, fun fee' first => ?_, fun fee' demand change r items ran same changeOk => ?_⟩
  · obtain rfl : fee = fee' := Except.ok.inj (priced'.symm.trans first)
    obtain rfl := pure_ok priced
    have shape : Fee.signedShape bare terms.draft.stakeWitnesses =
        (Fee.signedShape bare terms.draft.stakeWitnesses).paying terms.draft.body.outputs 0 :=
      congrArg (Fee.signedShape · terms.draft.stakeWitnesses) plain
    have large := Fee.le_size_signedShape sized
    rw [shape, weighs _ _ _ written] at sized
    exact ⟨e.size, charged, (Except.ok.inj sized).symm, large⟩
  · have assembled' := ran.assembled
    rw [same, Draft.assemble_other assembled] at assembled'
    obtain ⟨sized', charged'⟩ := Fee.estimate_ok ran.estimated
    rw [← Except.ok.inj assembled'] at sized'
    have size := weighs _ _ (Amount.clamp (fee'.toNat + change.dust.toNat))
      (mapM_append_ok written changeOk)
    rw [charged', ← Except.ok.inj (size.symm.trans sized')]

/-! ### Rounds that do not suffice -/

/-- Rounds that did not suffice, as many as counted, and what the next round begins with. -/
inductive Begins (b : Balancer) (terms : Terms) (given : List Utxo) :
    Nat → Amount → List Utxo → List Utxo → Prop where
  | first {fee : Amount} (priced : b.firstFee terms given = .ok fee) :
      Begins b terms given 0 fee given (withoutRefs b.pool given)
  | next {before : Nat} {fee : Amount} {inputs spare : List Utxo} {r : Round}
      (begun : Begins b terms given before fee inputs spare)
      (ran : b.round terms fee inputs spare = .ok r) (short : fee < r.estimate.fee) :
      Begins b terms given (before + 1) r.estimate.fee r.inputs r.spare

/-- Funding takes nothing from the pool in any round, and its change is of the shape. -/
def Steady (b : Balancer) (terms : Terms) (given : List Utxo) (shape : Change → Prop) : Prop :=
  ∀ before fee inputs spare, Begins b terms given before fee inputs spare →
    before < b.maxFeeRounds.toNat → ∀ demand funded,
      terms.baseDemand.add (.ofCoin fee) = .ok demand →
      b.fund terms.extraSupply demand inputs spare = .ok funded →
        funded.inputs = inputs ∧ shape funded.change

theorem assembles_any (draft : Draft) (inputs : List Utxo) :
    Assembles (fun _ => True) draft inputs := fun _ _ _ _ _ =>
  (draft.within_assemble _ _ _ _).imp fun _ within => within.imp (fun _ _ => trivial) id

/-- A run that leaves the fee open went through all its rounds. -/
theorem begins_of_unsettled {before left : Nat} {fee : Amount} {inputs spare : List Utxo}
    {rounds : UInt64} {last : Amount} (free : b.fixedFee = none)
    (begun : Begins b terms given before fee inputs spare)
    (h : b.rounds terms left fee inputs spare = .error (.refused (.feeNotConverged rounds last))) :
    ∀ more ≤ left, ∃ fee inputs spare, Begins b terms given (before + more) fee inputs spare := by
  induction left generalizing before fee inputs spare with
  | zero =>
    intro more le
    obtain rfl := Nat.le_zero.1 le
    exact ⟨_, _, _, begun⟩
  | succ left ih =>
    intro more le
    rw [Balancer.rounds] at h
    cases ran : b.round terms fee inputs spare with
    | error e =>
      rw [ran] at h
      cases h
      have settles : Fails (Failure.Within (fun _ => True) False) (b.round terms fee inputs spare) :=
        within_round (assembles_any _ _)
      exact (settles _ ran).elim
    | ok r =>
      replace h := (bind_of_ok ran).symm.trans h
      split at h
      · unfold accept at h
        split at h <;> cases h
      · rename_i open'
        have short : fee < r.estimate.fee := by
          rw [free] at open'
          exact UInt64.not_le.1 fun le => open' (.inr le)
        cases more with
        | zero => exact ⟨_, _, _, begun⟩
        | succ more =>
          obtain ⟨fee', inputs', spare', later⟩ :=
            ih (begun.next ran short) h more (Nat.le_of_succ_le_succ le)
          exact ⟨fee', inputs', spare', by rwa [Nat.add_right_comm, Nat.add_assoc] at later⟩

/-- A round that begins with the fee, from the inputs that were given, does not suffice. -/
structure Raises (b : Balancer) (terms : Terms) (given : List Utxo) (shape : Change → Prop)
    (fee next : Amount) : Prop where
  ran : ∃ demand change r, Ran b terms fee demand change r ∧ r.inputs = given ∧ shape change ∧
    next = r.estimate.fee
  short : fee < next

theorem Steady.inputs {shape : Change → Prop} (steady : Steady b terms given shape) {before : Nat}
    {fee : Amount} {inputs spare : List Utxo}
    (begun : Begins b terms given before fee inputs spare) (within : before ≤ b.maxFeeRounds.toNat) :
    inputs = given := by
  induction begun with
  | first => rfl
  | next begun ran _ ih =>
    obtain ⟨demand, funded, demanded, found, taken, _⟩ := ran_of_round ran
    rw [taken, (steady _ _ _ _ begun within demand funded demanded found).1]
    exact ih (Nat.le_of_succ_le within)

theorem Steady.raises {shape : Change → Prop} (steady : Steady b terms given shape) {before : Nat}
    {next : Amount} {inputs spare : List Utxo}
    (begun : Begins b terms given (before + 1) next inputs spare)
    (within : before < b.maxFeeRounds.toNat) :
    ∃ fee inputs spare, Begins b terms given before fee inputs spare ∧
      Raises b terms given shape fee next := by
  cases begun with
  | next begun ran short =>
    obtain ⟨demand, funded, demanded, found, taken, _, settled⟩ := ran_of_round ran
    obtain ⟨kept, shaped⟩ := steady _ _ _ _ begun within demand funded demanded found
    refine ⟨_, _, _, begun, ⟨demand, funded.change, _, settled, ?_, shaped, rfl⟩, short⟩
    rw [taken, kept, steady.inputs begun within.le]

/-! ### Convergence -/

/-- Without an output each round charges the same. -/
theorem not_raises_twice {rest : Nat} {outs : List Cbor} (bare : Bare b terms given rest outs)
    {fee next last : Amount} (once : Raises b terms given Change.IsNone fee next)
    (twice : Raises b terms given Change.IsNone next last) : False := by
  obtain ⟨⟨demand, change, r, ran, same, none, priced⟩, _⟩ := once
  obtain ⟨⟨demand', change', r', ran', same', none', priced'⟩, short⟩ := twice
  obtain ⟨supply, left, supplied, plan, sum⟩ := ran.exists_left
  obtain ⟨supply', left', supplied', plan', sum'⟩ := ran'.exists_left
  rw [same] at supplied
  rw [same'] at supplied'
  cases supplied.symm.trans supplied'
  have empty {change : Change} (none : change.IsNone) :
      change.outputs.mapM TxOutput.toCbor = .ok [] := by
    rw [none]
    rfl
  have first := bare.round _ _ _ _ _ ran same (empty none)
  have second := bare.round _ _ _ _ _ ran' same' (empty none')
  have charged : fee.toNat + change.dust.toNat = next.toNat + change'.dust.toNat := by
    rw [none.dust plan, none'.dust plan']
    omega
  rw [priced', second, ← charged, ← first, ← priced] at short
  exact UInt64.lt_irrefl _ short

/-- With one output the size depends on the widths of the fee and of what is left over. -/
theorem Bare.exists_single {rest : Nat} {outs : List Cbor} (bare : Bare b terms given rest outs) :
    ∃ base, base ≤ rest + (Cbor.array outs).length + 82 ∧
      ∀ fee next, Raises b terms given Change.IsSingle fee next → ∃ supply left,
        supplyOf terms.extraSupply given = .ok supply ∧
          fee.toNat + left + terms.baseDemand.coin.toNat = supply.coin.toNat ∧
          next = Fee.price b.params terms.scriptCost b.feePadding
            (base + Cbor.headLength fee.toNat + Cbor.headLength left) := by
  refine ⟨rest + Cbor.headLength (outs.length + 1) + (outs.map Cbor.length).sum +
    (b.changeAddress.toCbor.length + 3), ?_, ?_⟩
  · have wide := Cbor.headLength_le (outs.length + 1)
    have address := b.changeAddress.length_toCbor_le
    rw [Cbor.length_array]
    omega
  rintro fee next ⟨⟨demand, change, r, ran, same, ⟨o, single, adaOnly⟩, priced⟩, _⟩
  obtain ⟨supply, left, supplied, plan, sum⟩ := ran.exists_left
  rw [same] at supplied
  obtain ⟨dust, coin⟩ := Change.coin_of_single single plan
  have plain := Change.plain_of_plan plan o (by rw [single]; exact .head _)
  obtain ⟨item, written, length⟩ := TxOutput.length_toCbor_adaOnly adaOnly plain.datum plain.script
  have items : change.outputs.mapM TxOutput.toCbor = .ok [item] := by
    rw [single, List.mapM_cons]
    exact bind_of_ok written
  have charged : Amount.clamp (fee.toNat + change.dust.toNat) = fee := by
    have small := Amount.toNat_le_largest fee
    refine UInt64.toNat_inj.1 ?_
    rw [dust, Amount.toNat_clamp]
    show min (fee.toNat + 0) _ = _
    omega
  refine ⟨supply, left.coin.toNat, supplied, sum, ?_⟩
  rw [priced, bare.round _ _ _ _ _ ran same items, charged, Cbor.length_array, List.map_append,
    List.sum_append, List.length_append, List.map_singleton, List.sum_singleton, length,
    plain.address, coin]
  congr 1
  simp only [List.length_singleton]
  omega

/-- What is left over is no wider the second time, so the fee is wider. -/
theorem Raises.wider {rest : Nat} {outs : List Cbor} (bare : Bare b terms given rest outs)
    {fee next last : Amount} (once : Raises b terms given Change.IsSingle fee next)
    (twice : Raises b terms given Change.IsSingle next last) :
    Cbor.headLength fee.toNat < Cbor.headLength next.toNat := by
  obtain ⟨base, _, single⟩ := bare.exists_single
  obtain ⟨supply, left, supplied, sum, price⟩ := single _ _ once
  obtain ⟨_, left', supplied', sum', price'⟩ := single _ _ twice
  cases supplied.symm.trans supplied'
  have rises := UInt64.lt_iff_toNat_lt.1 once.short
  have larger := twice.short
  rw [price, price'] at larger
  have sizes := Fee.size_lt_of_price larger
  have narrower : Cbor.headLength left' ≤ Cbor.headLength left := Cbor.headLength_mono (by omega)
  omega

/-- Fees that widen twice are too far apart for one output more. -/
theorem not_raises_thrice {rest : Nat} {outs : List Cbor} (bare : Bare b terms given rest outs)
    {first second third fourth : Amount} (priced : b.firstFee terms given = .ok first)
    (once : Raises b terms given Change.IsSingle first second)
    (twice : Raises b terms given Change.IsSingle second third)
    (thrice : Raises b terms given Change.IsSingle third fourth) : False := by
  have apart := Cbor.ten_mul_lt_of_headLength (once.wider bare twice) (twice.wider bare thrice)
  obtain ⟨size, charged, sized, large⟩ := bare.first first priced
  obtain ⟨base, small, single⟩ := bare.exists_single
  obtain ⟨_, left, _, _, price⟩ := single _ _ twice
  have near : third.toNat ≤ 10 * first.toNat := by
    have fee := Cbor.headLength_le second.toNat
    have left := Cbor.headLength_le left
    rw [price, charged]
    exact Fee.price_le_ten_mul (by omega)
  omega

/-- Three rounds are enough without a fixed fee, as long as the inputs that are given stay the
inputs, and either no round has an output for its change or each has one, of lovelace alone. -/
theorem balance_converges {draft : Draft} (free : b.fixedFee = none)
    (enough : 3 ≤ b.maxFeeRounds.toNat)
    (steady : ∀ terms, Terms.Of b draft terms →
      Steady b terms given Change.IsNone ∨ Steady b terms given Change.IsSingle)
    (rounds : UInt64) (fee : Amount) :
    b.balance draft given ≠ .error (.refused (.feeNotConverged rounds fee)) := by
  have settles : Fails (Failure.Within (fun _ => True) False) (b.balance draft given) := by
    refine .bind (Fee.within_scripts _ _) fun scriptCost cost => ?_
    refine .bind (draft.within_extraSupply _) fun extraSupply supply => ?_
    refine .bind (draft.within_baseDemand _) fun baseDemand demand => ?_
    refine .bind (.mapError (within_firstFee (assembles_any _ _))) fun first priced e failed => ?_
    replace priced : b.firstFee _ given = .ok first := mapError_ok priced
    cases e with
    | overflow => trivial
    | refused error =>
      cases error with
      | feeNotConverged rounds last =>
        obtain ⟨rest, outs, bare⟩ := exists_bare free priced
        obtain ⟨fourth, _, _, begun⟩ := begins_of_unsettled free (.first priced) failed 3 enough
        rcases steady ⟨draft, scriptCost, extraSupply, baseDemand⟩ ⟨rfl, cost, supply, demand⟩
          with none | single
        · obtain ⟨third, _, _, begun, twice⟩ := none.raises begun enough
          obtain ⟨second, _, _, _, once⟩ := none.raises begun (Nat.le_of_succ_le enough)
          exact not_raises_twice bare once twice
        · obtain ⟨third, _, _, begun, thrice⟩ := single.raises begun enough
          obtain ⟨second, _, _, begun, twice⟩ := single.raises begun (Nat.le_of_succ_le enough)
          obtain ⟨_, _, _, begun, once⟩ := single.raises begun (Nat.lt_of_lt_of_le (by decide) enough)
          cases begun with
          | first priced => exact not_raises_thrice bare priced once twice thrice
      | _ => trivial
  exact settles _

/-- The first round adds the change and the width of the fee, and the second has the fee right. -/
theorem balance_converges_second :
    let address : Address := .enterprise .testnet (.key .zero)
    let given : Utxo := ⟨⟨.zero, 0⟩, { address, value := .ofCoin 10000000 }⟩
    let draft : Draft := { body := { outputs := [{ address, value := .ofCoin 2000000 }] } }
    let terms : Terms := ⟨draft, 0, .ofCoin 0, .ofCoin 2000000⟩
    let b : Balancer := { params := {}, maxFeeRounds := 3, pool := [], changeAddress := address,
                          fixedFee := none, feePadding := 0 }
    Terms.Of b draft terms ∧ b.firstFee terms [given] = .ok 163697 ∧
      (b.balance draft [given]).toOption.map (·.tx.body.fee) = some 165589 ∧
      ∀ rounds fee, b.balance draft [given] ≠ .error (.refused (.feeNotConverged rounds fee)) := by
  intro address given draft terms b
  have of : Terms.Of b draft terms := ⟨rfl, ok_of_toOption (by decide +kernel),
    ok_of_toOption (by decide +kernel), ok_of_toOption (by decide +kernel)⟩
  have priced : b.firstFee terms [given] = .ok 163697 := ok_of_toOption (by decide +kernel)
  refine ⟨of, priced, by decide +kernel, balance_converges rfl (by decide) fun terms' of' => .inr ?_⟩
  obtain rfl : terms = terms' := by
    obtain ⟨_, _, _, _⟩ := terms'
    obtain ⟨rfl, cost, supply, demand⟩ := of'
    cases of.scriptCost.symm.trans cost
    cases of.extraSupply.symm.trans supply
    cases of.baseDemand.symm.trans demand
    rfl
  have next : (b.round terms 163697 [given] []).toOption.map (·.estimate.fee) = some 165589 := by
    decide +kernel
  have last : (b.round terms 165589 [given] []).toOption.map (·.estimate.fee) = some 165589 := by
    decide +kernel
  -- These are all the rounds there are.
  have begins {before : Nat} {fee : Amount} {inputs spare : List Utxo}
      (begun : Begins b terms [given] before fee inputs spare) :
      inputs = [given] ∧ spare = [] ∧ (fee = 163697 ∨ fee = 165589) := by
    induction begun with
    | first priced' =>
      cases priced.symm.trans priced'
      exact ⟨rfl, rfl, .inl rfl⟩
    | next _ ran short ih =>
      obtain ⟨rfl, rfl, rfl | rfl⟩ := ih
      · obtain ⟨_, _, _, found, inputs, spare, _⟩ := ran_of_round ran
        rw [ran] at next
        rw [inputs, spare]
        exact ⟨(fund_nil found).1, (fund_nil found).2, .inr (Option.some.inj next)⟩
      · rw [ran] at last
        have same : _ = (165589 : Amount) := Option.some.inj last
        exact absurd (same ▸ short) (UInt64.lt_irrefl _)
  have single (fee : Amount) (among : fee = 163697 ∨ fee = 165589) :
      ((terms.baseDemand.add (.ofCoin fee)).toOption.bind fun demand =>
        (b.fund terms.extraSupply demand [given] []).toOption).map
          (·.change.outputs.map (·.value.hasAssets)) = some [false] := by
    rcases among with rfl | rfl <;> decide +kernel
  intro before fee inputs spare begun _ demand funded demanded found
  obtain ⟨rfl, rfl, among⟩ := begins begun
  refine ⟨(fund_nil found).1, ?_⟩
  have shape := single fee among
  rw [demanded] at shape
  replace shape : (b.fund terms.extraSupply demand [given] []).toOption.map
    (·.change.outputs.map (·.value.hasAssets)) = some [false] := shape
  rw [found] at shape
  obtain ⟨o, outputs, adaOnly⟩ := List.map_eq_singleton_iff.1 (Option.some.inj shape)
  exact ⟨o, outputs, adaOnly⟩

end Balancer

end ConwayTx
