import ConwayTx.Proofs.Hex
import ConwayTx.Proofs.Payment
import ConwayTx.Proofs.Value.Arithmetic
import ConwayTx.Proofs.Value.Equality
import ConwayTx.Proofs.Value.Range

/-!
# Valid payments

A payment has a value unless one of its units is a burn or names nothing, or no word holds its
lovelace (`Payment.refused_value_iff`). A payment made from a value is valid, because its units are
read as what they were written from (`AssetUnit.assetId_toHex`). It carries what the value has above
zero and nothing of what the value owes (`Payment.value_ofValue`).
-/

namespace ConwayTx

open Outcome

/-- A sum whose summands may be bad: an overflow on the way is one of the whole sum. -/
theorem Value.refused_foldlM_iff {α : Type} {step : Value → α → Except BuildError Value}
    (bad : α → Prop) (worth : α → Funds)
    (each : ∀ v a, Refused (step v a) ↔ bad a ∨ Amount.largest < (v.funds + worth a).1)
    (adds : ∀ v a next, step v a = .ok next → next.funds = v.funds + worth a) (l : List α)
    (start : Value) : Refused (l.foldlM step start) ↔
      (∃ a ∈ l, bad a) ∨ Amount.largest < (start.funds + (l.map worth).sum).1 := by
  induction l generalizing start with
  | nil =>
    refine iff_of_false (not_refused_ok start) ?_
    rintro (⟨a, mem, _⟩ | above)
    · cases mem
    · exact absurd above (not_lt.2 start.coin.toNat_le_largest)
  | cons a rest ih =>
    have later (next : Value) (added : step start a = .ok next) :
        Refused (rest.foldlM step next) ↔ (∃ a ∈ rest, bad a) ∨
          Amount.largest < (start.funds + worth a + (rest.map worth).sum).1 := by
      rw [ih, adds start a next added]
    have grows (above : Amount.largest < (start.funds + worth a).1) :
        Amount.largest < (start.funds + worth a + (rest.map worth).sum).1 := Nat.lt_add_right _ above
    rw [List.foldlM_cons, refused_bind_iff later, each, List.exists_mem_cons_iff, List.map_cons,
      List.sum_cons, ← add_assoc]
    constructor
    · rintro ((first | above) | others | above)
      · exact .inl (.inl first)
      · exact .inr (grows above)
      · exact .inl (.inr others)
      · exact .inr above
    · rintro ((first | others) | above)
      · exact .inl (.inl first)
      · exact .inr (.inl others)
      · exact .inr (.inr above)

/-! ### Units -/

namespace AssetUnit

variable {u : AssetUnit}

/-- No policy is written as the name of the coin. -/
theorem isLovelace_toHex (policy : PolicyId) (name : String) (q : Int64) :
    isLovelace ⟨policy.toHex, name, q⟩ = false := by
  have long : (Bytes.ofText policy.toHex).length = 56 := by
    rw [Digest.toHex, Hex.length_ofText_encode, policy.length_eq]
  have other {text : String} (short : (Bytes.ofText text).length ≠ 56) : policy.toHex ≠ text := by
    rintro rfl
    exact short long
  rw [isLovelace, Bool.or_eq_false_iff, decide_eq_false_iff_not, decide_eq_false_iff_not]
  exact ⟨other (by decide +kernel), other (by decide +kernel)⟩

theorem assetId_toHex (policy : PolicyId) (name : AssetName) (q : Int64) :
    assetId ⟨policy.toHex, name.toHex, q⟩ = .ok (some (policy, name)) := by
  have readPolicy : policyOfHex policy.toHex = .ok policy := by
    rw [policyOfHex, Digest.toHex, Hex.decode_encode]
    simp only [Digest.ofBytes?, policy.length_eq, dite_true]
  have readName : AssetName.ofHex name.toHex = .ok name := by
    rw [AssetName.ofHex, AssetName.toHex, Hex.decode_encode]
    simp only [AssetName.ofBytes?, name.length_le, dite_true]
  rw [assetId, isLovelace_toHex, readPolicy, readName]
  rfl

theorem refused_value_iff (nonneg : ¬ u.quantity < 0) : Refused u.value ↔ Refused u.assetId := by
  refine (refused_bind_iff fun asset _ => iff_false_intro ?_).trans (or_iff_left id)
  cases asset with
  | some asset => exact not_refused_ok _
  | none =>
    dsimp only
    rw [if_neg nonneg]
    exact not_refused_ok _

end AssetUnit

namespace Payment

/-! ### Whether there is a value -/

theorem refused_addUnit_iff {v : Value} {u : AssetUnit} : Refused (addUnit v u) ↔
    (u.quantity < 0 ∨ Refused u.assetId) ∨ Amount.largest < (v.funds + u.funds).1 := by
  unfold addUnit
  by_cases burn : u.quantity < 0
  · rw [if_pos burn]
    exact iff_of_true (refused_error _) (.inl (.inl burn))
  · rw [if_neg burn, or_iff_right burn, ← AssetUnit.refused_value_iff burn]
    refine (refused_bind_iff fun one valued => ?_).trans (or_congr_left refused_mapError_iff)
    rw [← AssetUnit.funds_value (mapError_ok valued)]
    exact refused_mapError_iff.trans (Value.checked_add v one).refused_iff

theorem refused_value_iff {p : Payment} : Refused p.value ↔
    (∃ u ∈ p.units, u.quantity < 0 ∨ Refused u.assetId) ∨ Amount.largest < p.requested.1 :=
  Value.refused_foldlM_iff (fun u : AssetUnit => u.quantity < 0 ∨ Refused u.assetId) AssetUnit.funds
    (fun _ _ => refused_addUnit_iff) (fun _ _ _ => funds_addUnit) p.units (.ofCoin p.lovelace)

/-! ### A payment of a value -/

variable {address : Address} {v : Value} {p : Payment}

theorem refused_unitOf_iff {policy : PolicyId} {name : AssetName} {q : ℤ} (above : 0 < q) :
    Refused (unitOf policy name q) ↔ 2 ^ 63 - 1 < q := by
  have fits : Amount.signed? q = none ↔ 2 ^ 63 - 1 < q :=
    Amount.signed?_eq_none_iff.trans (or_iff_right (by omega))
  rw [← fits]
  unfold unitOf
  split
  · rename_i word held
    rw [held]
    exact iff_of_false (not_refused_ok _) nofun
  · rename_i none
    exact iff_of_true (refused_error _) none

theorem unitOf_ok {policy : PolicyId} {name : AssetName} {q : ℤ} {u : AssetUnit}
    (h : unitOf policy name q = .ok u) :
    u.assetId = .ok (some (policy, name)) ∧ u.quantity.toInt = q := by
  unfold unitOf at h
  split at h
  · rename_i word fits
    cases h
    exact ⟨AssetUnit.assetId_toHex _ _ _, MultiAsset.toInt_signed? fits⟩
  · cases h

theorem refused_ofValue_iff : Refused (ofValue address v) ↔
    ∃ policy name, 2 ^ 63 - 1 < v.quantity policy name := by
  refine refused_bind_pure_iff.trans (refused_mapM_iff.trans ?_)
  constructor
  · rintro ⟨⟨policy, name, q⟩, mem, refused⟩
    obtain ⟨above, rfl⟩ := Value.mem_positive.1 mem
    exact ⟨policy, name, (refused_unitOf_iff above).1 (refused_mapError_iff.1 refused)⟩
  · rintro ⟨policy, name, beyond⟩
    have above : 0 < v.quantity policy name := by omega
    exact ⟨_, Value.mem_positive.2 ⟨above, rfl⟩,
      refused_mapError_iff.2 ((refused_unitOf_iff above).2 beyond)⟩

/-- The funds of entries, put together again. -/
theorem sum_entries (entries : List (PolicyId × AssetName × ℤ)) :
    (entries.map fun e =>
      ((0, fun asset => if asset.1 = e.1 ∧ asset.2 = e.2.1 then e.2.2 else 0) : Funds)).sum =
      (0, fun asset => MultiAsset.sumAt asset.1 asset.2 id entries) := by
  induction entries with
  | nil => rfl
  | cons e rest ih =>
    rw [List.map_cons, List.sum_cons, ih]
    refine Prod.ext rfl (funext fun asset => ?_)
    simp [eq_comm]

theorem address_ofValue (h : ofValue address v = .ok p) : p.address = address := by
  obtain ⟨units, _, h⟩ := bind_ok h
  obtain rfl := pure_ok h
  rfl

/-- What is owed is left out. -/
theorem requested_ofValue (h : ofValue address v = .ok p) : p.requested = v.positiveFunds := by
  obtain ⟨units, written, h⟩ := bind_ok h
  obtain rfl := pure_ok h
  have each : units.map AssetUnit.funds = v.positive.map fun e =>
      (0, fun asset => if asset.1 = e.1 ∧ asset.2 = e.2.1 then e.2.2 else 0) := by
    refine map_of_mapM_ok _ written fun e u one => ?_
    obtain ⟨asset, quantity⟩ := unitOf_ok (mapError_ok one)
    rw [AssetUnit.funds, asset, ← quantity]
  rw [requested, each, sum_entries]
  refine Prod.ext (add_zero _) (funext fun asset => ?_)
  show 0 + MultiAsset.sumAt asset.1 asset.2 id v.bundle.positive = max 0 (v.bundle.quantity _ _)
  rw [MultiAsset.sumAt_positive, zero_add, id]
  split <;> omega

theorem exists_value_ofValue (h : ofValue address v = .ok p) : ∃ w, p.value = .ok w := by
  have requested := requested_ofValue h
  refine not_refused_iff.1 fun refused => ?_
  rcases refused_value_iff.1 refused with ⟨u, mem, bad⟩ | above
  · obtain ⟨units, written, h⟩ := bind_ok h
    obtain rfl := pure_ok h
    refine forall_mapM_ok (p := fun u => ¬ (u.quantity < 0 ∨ Refused u.assetId)) written ?_ u mem bad
    rintro ⟨policy, name, q⟩ listed u one
    obtain ⟨asset, quantity⟩ := unitOf_ok (mapError_ok one)
    have above := (Value.mem_positive.1 listed).1
    rw [asset, Int64.lt_iff_toInt_lt, quantity]
    exact not_or_intro (not_lt.2 above.le) (not_refused_ok _)
  · rw [requested] at above
    exact absurd above (not_lt.2 v.coin.toNat_le_largest)

theorem value_ofValue (h : ofValue address v = .ok p) : ∃ w, p.value = .ok w ∧ w.coin = v.coin ∧
    ∀ policy name, w.quantity policy name = max 0 (v.quantity policy name) := by
  obtain ⟨w, valued⟩ := exists_value_ofValue h
  have same := (funds_value valued).trans (requested_ofValue h)
  exact ⟨w, valued, UInt64.toNat_inj.1 (congrArg Prod.fst same), fun policy name =>
    congrFun (congrArg Prod.snd same) (policy, name)⟩

theorem canonical_value {w : Value} (h : p.value = .ok w) : w.Canonical := by
  refine foldlM_ok (fun _ w => w.Canonical) h (Value.canonical_ofCoin _) ?_
  intro _ u w next _ added
  unfold addUnit at added
  split at added
  · cases added
  · obtain ⟨one, _, added⟩ := bind_ok added
    exact Value.canonical_add (mapError_ok added)

/-- Nothing is left out of a value that owes nothing. -/
theorem beq_value_ofValue_iff {w : Value} (h : ofValue address v = .ok p) (valued : p.value = .ok w) :
    (w == v) = true ↔ v.NoNegative ∧ v.bundle.Canonical := by
  obtain ⟨_, valued', coin, quantities⟩ := value_ofValue h
  obtain rfl := Except.ok.inj (valued.symm.trans valued')
  rw [Value.beq_iff, and_iff_right coin]
  constructor
  · intro same
    refine ⟨fun policy name => ?_, same ▸ (canonical_value valued).bundle⟩
    have shown : w.quantity policy name = v.quantity policy name := by
      rw [Value.quantity, same, Value.quantity]
    rw [← shown, quantities]
    exact le_max_left _ _
  · rintro ⟨sound, canonical⟩
    refine (canonical_value valued).bundle.eq_of_quantity canonical fun policy name => ?_
    exact (quantities policy name).trans (max_eq_right (sound policy name))

end Payment

end ConwayTx
