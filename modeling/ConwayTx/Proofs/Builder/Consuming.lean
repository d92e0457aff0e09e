import ConwayTx.Proofs.Builder.Attached
import ConwayTx.Proofs.Builder.Coverage
import ConwayTx.Proofs.Payment.Validity

/-!
# Outputs that are consumed

An output that is consumed is spent and paid out to the last asset: what the payments leave of it goes
to the change address (`PaysOut`). There is a reason for each refusal (`Unpayable`). A payment made
from a value is that value where nothing is owed and nothing is listed at zero.
-/

namespace ConwayTx.Builder

open Outcome

variable {b : Builder} {u : Utxo} {payments : List Payment}

/-! ### What is paid -/

/-- What payments ask for together. -/
def requested (payments : List Payment) : Funds := (payments.map Payment.requested).sum

theorem funds_of_mapM_value {values : List Value} (h : payments.mapM Payment.value = .ok values) :
    (values.map Value.funds).sum = requested payments := by
  rw [map_of_mapM_ok Payment.requested h fun _ _ => Payment.funds_value, requested]

theorem paidTotal_ok {paid : Value} (h : paidTotal payments = .ok paid) :
    paid.funds = requested payments ∧ paid.NoNegative ∧ paid.Canonical := by
  refine foldlM_ok (fun payments paid => paid.funds = requested payments ∧ paid.NoNegative ∧
    paid.Canonical) h ⟨rfl, Value.noNegative_ofCoin 0, Value.canonical_ofCoin 0⟩ ?_
  rintro done p paid next ⟨sum, sound, _⟩ added
  obtain ⟨one, valued, added⟩ := bind_ok added
  replace added := mapError_ok added
  have funds := Value.funds_add added
  refine ⟨?_, Value.noNegative_of_funds ?_, Value.canonical_add added⟩
  · rw [funds, sum, Payment.funds_value valued, requested, requested, List.map_append, List.sum_append,
      List.map_singleton, List.sum_singleton]
  · rw [funds]
    exact add_nonneg (Value.funds_nonneg sound) (Value.funds_nonneg (Payment.noNegative_value valued))

theorem refused_paidTotal_iff : Refused (paidTotal payments) ↔
    (∃ p ∈ payments, Refused p.value) ∨ Amount.largest < (requested payments).1 := by
  refine (Value.refused_foldlM_iff (fun p : Payment => Refused p.value) Payment.requested ?_ ?_
    payments (.ofCoin 0)).trans ?_
  · intro paid p
    refine refused_bind_iff fun one valued => ?_
    rw [← Payment.funds_value valued]
    exact refused_mapError_iff.trans (Value.checked_add paid one).refused_iff
  · intro paid p next added
    obtain ⟨one, valued, added⟩ := bind_ok added
    rw [Value.funds_add (mapError_ok added), Payment.funds_value valued]
  · rw [show (Value.ofCoin 0).funds = 0 from rfl, zero_add, requested]

/-! ### What is left -/

variable {remainder : Value}

theorem refused_changeTarget_iff :
    Refused b.changeTarget ↔ b.changeAddress = none ∧ b.wallet = none := by
  unfold changeTarget
  split
  · rename_i set
    exact iff_of_false (not_refused_ok _) fun unset => by rw [set] at unset; cases unset.1
  · rename_i unset wallet
    exact iff_of_false (not_refused_ok _) fun none => by rw [wallet] at none; cases none.2
  · rename_i unset walletless
    exact iff_of_true (refused_error _) ⟨unset, walletless⟩

/-- Something is given back where there is something. -/
theorem givenBack_iff (sound : remainder.NoNegative) :
    (0 < remainder.coin ∨ remainder.hasAssets = true) ↔ remainder.funds ≠ 0 := by
  have coin : 0 < remainder.coin ↔ 0 < remainder.funds.1 := UInt64.lt_iff_toNat_lt
  rw [Value.hasAssets_iff, coin]
  constructor
  · rintro (above | ⟨policy, name, above⟩) nothing
    · rw [nothing] at above
      exact lt_irrefl 0 above
    · have zero : remainder.quantity policy name = 0 :=
        congrFun (congrArg Prod.snd nothing) (policy, name)
      omega
  · intro something
    by_contra nothing
    obtain ⟨noCoin, noAssets⟩ := not_or.1 nothing
    refine something (Prod.ext (Nat.eq_zero_of_not_pos noCoin) (funext fun asset => ?_))
    exact le_antisymm (not_lt.1 fun above => noAssets ⟨_, _, above⟩) (sound asset.1 asset.2)

theorem refused_remainderPayment_iff (sound : remainder.NoNegative) :
    Refused (b.remainderPayment remainder) ↔ (remainder.funds ≠ 0 ∧ Refused b.changeTarget) ∨
      ∃ asset, 2 ^ 63 - 1 < remainder.funds.2 asset := by
  unfold remainderPayment
  have given := givenBack_iff sound
  split
  · rename_i something
    rw [and_iff_right (given.1 something)]
    refine refused_bind_iff fun address _ => refused_bind_pure_iff.trans ?_
    rw [Payment.refused_ofValue_iff, Prod.exists]
    rfl
  · rename_i nothing
    have zero : remainder.funds = 0 := not_not.1 fun nonzero => nothing (given.2 nonzero)
    refine iff_of_false (not_refused_ok _) ?_
    rintro (⟨nonzero, _⟩ | ⟨asset, beyond⟩)
    · exact nonzero zero
    · rw [zero] at beyond
      exact absurd beyond (by simp)

theorem remainderPayment_ok {rest : List Payment} (sound : remainder.NoNegative)
    (h : b.remainderPayment remainder = .ok rest) :
    rest.length ≤ 1 ∧ (∀ p ∈ rest, b.changeTarget = .ok p.address) ∧
      ∃ values, rest.mapM Payment.value = .ok values ∧
        (values.map Value.funds).sum = remainder.funds := by
  unfold remainderPayment at h
  have given := givenBack_iff sound
  split at h
  · obtain ⟨address, target, h⟩ := bind_ok h
    obtain ⟨p, made, h⟩ := bind_ok h
    obtain rfl := pure_ok h
    obtain ⟨w, valued, coin, quantities⟩ := Payment.value_ofValue made
    refine ⟨le_rfl, fun q mem => ?_, [w], ?_, ?_⟩
    · rw [List.mem_singleton.1 mem, Payment.address_ofValue made, target]
    · rw [List.mapM_cons, valued]
      rfl
    · rw [List.map_singleton, List.sum_singleton]
      refine Prod.ext (congrArg UInt64.toNat coin) (funext fun asset => ?_)
      exact (quantities _ _).trans (max_eq_right (sound _ _))
  · rename_i nothing
    obtain rfl := pure_ok h
    have zero : remainder.funds = 0 := not_not.1 fun nonzero => nothing (given.2 nonzero)
    exact ⟨Nat.zero_le 1, List.forall_mem_nil _, [], rfl, zero.symm⟩

/-! ### The whole output -/

/-- Why an output that holds `whole` cannot pay `paid` and give back the rest. -/
inductive Unpayable (b : Builder) (whole paid : Funds) : Prop where
  | overflow (above : Amount.largest < paid.1)
  | uncovered (short : ¬ paid ≤ whole)
  | unaddressed (rest : paid ≠ whole) (unset : b.changeAddress = none) (walletless : b.wallet = none)
  | oversized (asset : Asset) (beyond : 2 ^ 63 - 1 < whole.2 asset - paid.2 asset)

/-- The output is spent. The given payments and one of the rest, if anything is left, are worth what it
held. -/
structure PaysOut (b : Builder) (u : Utxo) (payments rest : List Payment) (after : Builder) : Prop where
  edit : after = { b.addInput u with payments := b.payments ++ (payments ++ rest) }
  ref_mem : u.ref ∈ after.preselected.map Utxo.ref
  mem : u.ref ∉ b.preselected.map Utxo.ref → u ∈ after.preselected
  length_rest : rest.length ≤ 1
  toChange : ∀ p ∈ rest, b.changeTarget = .ok p.address
  whole : ∃ values, (payments ++ rest).mapM Payment.value = .ok values ∧
    (values.map Value.funds).sum = u.value.funds

theorem refused_consumeUtxo_iff (sound : u.value.NoNegative) :
    Refused (b.consumeUtxo u payments) ↔ (∃ p ∈ payments, Refused p.value) ∨
      b.Unpayable u.value.funds (requested payments) := by
  have steps : Refused (b.consumeUtxo u payments) ↔ Refused (paidTotal payments) ∨
      ¬ requested payments ≤ u.value.funds ∨
      (requested payments ≠ u.value.funds ∧ Refused b.changeTarget) ∨
      ∃ asset, 2 ^ 63 - 1 < u.value.funds.2 asset - (requested payments).2 asset := by
    refine refused_bind_iff fun paid total => ?_
    obtain ⟨sum, sound', canonical⟩ := paidTotal_ok total
    rw [← sum, ← Value.refused_sub_iff_le sound sound' canonical]
    refine (refused_bind_iff fun remainder difference => ?_).trans (or_congr_left refused_mapError_iff)
    replace difference := mapError_ok difference
    rw [← Value.funds_sub difference]
    refine refused_bind_pure_iff.trans ?_
    rw [refused_remainderPayment_iff (Value.noNegative_sub sound difference)]
    simp
  rw [steps, refused_paidTotal_iff, or_assoc, refused_changeTarget_iff]
  refine or_congr_right ?_
  constructor
  · rintro (above | short | ⟨rest, unset, walletless⟩ | ⟨asset, beyond⟩)
    · exact .overflow above
    · exact .uncovered short
    · exact .unaddressed rest unset walletless
    · exact .oversized asset beyond
  · rintro (above | short | ⟨rest, unset, walletless⟩ | ⟨asset, beyond⟩)
    · exact .inl above
    · exact .inr (.inl short)
    · exact .inr (.inr (.inl ⟨rest, unset, walletless⟩))
    · exact .inr (.inr (.inr ⟨asset, beyond⟩))

/-- The values of payments that have one. -/
theorem exists_values (fine : ¬ ∃ p ∈ payments, Refused p.value) :
    ∃ values, payments.mapM Payment.value = .ok values :=
  not_refused_iff.1 fun refused => fine (refused_mapM_iff.1 refused)

theorem consumeUtxo_ok {after : Builder} (sound : u.value.NoNegative)
    (h : b.consumeUtxo u payments = .ok after) : ∃ rest, b.PaysOut u payments rest after := by
  obtain ⟨paid, total, h⟩ := bind_ok h
  obtain ⟨remainder, difference, h⟩ := bind_ok h
  obtain ⟨rest, given, h⟩ := bind_ok h
  obtain rfl := pure_ok h
  replace difference := mapError_ok difference
  obtain ⟨length, toChange, left, valued', sum⟩ :=
    remainderPayment_ok (Value.noNegative_sub sound difference) given
  have refs : u.ref ∈ (addOutputOnce b.preselected u).map Utxo.ref :=
    ref_mem_addOutputOnce.2 (.inr rfl)
  refine ⟨rest, by simp, refs, fun absent => ?_, length, toChange, ?_⟩
  · have new : ¬ b.preselected.any (·.ref = u.ref) = true := by
      intro held
      obtain ⟨v, mem, same⟩ := List.any_eq_true.1 held
      exact absent (List.mem_map.2 ⟨v, mem, of_decide_eq_true same⟩)
    show u ∈ addOutputOnce b.preselected u
    rw [addOutputOnce, if_neg new]
    exact List.mem_append_right _ (.head _)
  · obtain ⟨values, valued⟩ := exists_values fun refused =>
      not_refused_iff.2 ⟨paid, total⟩ (refused_paidTotal_iff.2 (.inl refused))
    refine ⟨values ++ left, mapM_append_ok valued valued', ?_⟩
    rw [List.map_append, List.sum_append, sum, funds_of_mapM_value valued,
      ← (paidTotal_ok total).1, add_comm, Value.funds_sub difference]

theorem consumeUtxo_pays_out (b : Builder) (u : Utxo) (payments : List Payment)
    (sound : u.value.NoNegative) :
    (∀ after, b.consumeUtxo u payments = .ok after → ∃ rest, b.PaysOut u payments rest after) ∧
    (Refused (b.consumeUtxo u payments) ↔ (∃ p ∈ payments, Refused p.value) ∨
      ∃ values, payments.mapM Payment.value = .ok values ∧
        b.Unpayable u.value.funds (values.map Value.funds).sum) ∧
    ∀ (address : Address) (v : Value),
      (Refused (Payment.ofValue address v) ↔
        ∃ policy name, 2 ^ 63 - 1 < v.quantity policy name) ∧
      ∀ p, Payment.ofValue address v = .ok p → p.address = address ∧
        ∃ w, p.value = .ok w ∧ w.coin = v.coin ∧
          (∀ policy name, w.quantity policy name = max 0 (v.quantity policy name)) ∧
          ((w == v) = true ↔ v.NoNegative ∧ v.bundle.Canonical) := by
  refine ⟨fun _ => consumeUtxo_ok sound, (refused_consumeUtxo_iff sound).trans ?_, fun address v => ?_⟩
  · refine or_congr_right' fun fine => ?_
    obtain ⟨values, valued⟩ := exists_values fine
    rw [← funds_of_mapM_value valued]
    refine ⟨fun reason => ⟨values, valued, reason⟩, ?_⟩
    rintro ⟨values', valued', reason⟩
    rwa [Except.ok.inj (valued.symm.trans valued')]
  · refine ⟨Payment.refused_ofValue_iff, fun p made => ⟨Payment.address_ofValue made, ?_⟩⟩
    obtain ⟨w, valued, coin, quantities⟩ := Payment.value_ofValue made
    exact ⟨w, valued, coin, quantities, Payment.beq_value_ofValue_iff made valued⟩

/-- Part of the lovelace and of a token is paid; the rest needs a change address. -/
theorem consumeUtxo_pays_out_rest :
    let policy : PolicyId := .zero
    let token : AssetName := ⟨[7], by decide⟩
    let address : Address := .enterprise .testnet (.key .zero)
    let held : Value := .withAssets 10 (.ofList [(policy, .ofList [(token, 5)])])
    let u : Utxo := ⟨⟨.zero, 0⟩, { address, value := held }⟩
    let p : Payment := { address, lovelace := 4, units := [⟨policy.toHex, token.toHex, 2⟩] }
    let b : Builder := { changeAddress := some address }
    u.value.NoNegative ∧
      (∃ after rest, b.consumeUtxo u [p] = .ok after ∧ b.PaysOut u [p] rest after) ∧
      Refused (({} : Builder).consumeUtxo u [p]) ∧
      ∃ whole w, Payment.ofValue address held = .ok whole ∧ whole.value = .ok w ∧
        (w == held) = true := by
  intro policy token address held u p b
  have sound : u.value.NoNegative := by decide +kernel
  obtain ⟨after, ended⟩ := ok_of_isSome
    (show (b.consumeUtxo u [p]).toOption.isSome = true by decide +kernel)
  obtain ⟨paysOut, _, made⟩ := consumeUtxo_pays_out b u [p] sound
  obtain ⟨rest, out⟩ := paysOut after ended
  obtain ⟨value, valued⟩ := ok_of_isSome (show p.value.toOption.isSome = true by decide +kernel)
  have coin : p.value.toOption.map Value.coin = some 4 := by decide +kernel
  rw [valued] at coin
  have single : [p].mapM Payment.value = .ok [value] := by
    rw [List.mapM_cons, valued]
    rfl
  have unaddressed : ({} : Builder).Unpayable u.value.funds ([value].map Value.funds).sum := by
    refine .unaddressed (fun same => ?_) rfl rfl
    have coins : value.coin.toNat = 10 := congrArg Prod.fst same
    rw [Option.some.inj coin] at coins
    exact absurd coins (by decide)
  obtain ⟨whole, paid⟩ := ok_of_isSome
    (show (Payment.ofValue address held).toOption.isSome = true by decide +kernel)
  obtain ⟨_, w, worth, _, _, same⟩ := (made address held).2 whole paid
  have canonical : held.Canonical := Value.canonical_withAssets _ _
  exact ⟨sound, ⟨after, rest, ended, out⟩,
    (consumeUtxo_pays_out {} u [p] sound).2.1.2 (.inr ⟨[value], single, unaddressed⟩),
    whole, w, paid, worth, same.2 ⟨sound, canonical.bundle⟩⟩

/-- A value that owes an asset is taken, and loses what it owes. -/
theorem ofValue_value_not :
    let address : Address := .enterprise .testnet (.key .zero)
    let owing : Value := ⟨5, some (.ofList [(.zero, .ofList [(⟨[], by decide⟩, -3)])])⟩
    ∃ p w, Payment.ofValue address owing = .ok p ∧ p.value = .ok w ∧ (w == owing) = false ∧
      w.quantity .zero ⟨[], by decide⟩ = 0 ∧ owing.quantity .zero ⟨[], by decide⟩ = -3 := by
  intro address owing
  obtain ⟨p, made⟩ := ok_of_isSome
    (show (Payment.ofValue address owing).toOption.isSome = true by decide +kernel)
  obtain ⟨w, valued, _, quantities⟩ := Payment.value_ofValue made
  have owed : owing.quantity .zero ⟨[], by decide⟩ = -3 := by decide +kernel
  refine ⟨p, w, made, valued, ?_, ?_, owed⟩
  · have negative : ¬ owing.NoNegative := by decide +kernel
    rw [← Bool.not_eq_true, Payment.beq_value_ofValue_iff made valued]
    exact fun both => negative both.1
  · rw [quantities, owed]
    rfl

end ConwayTx.Builder
