import ConwayTx.Proofs.Cbor.Numbers
import ConwayTx.Proofs.Outcome.Failing
import ConwayTx.Proofs.Value.Funds
import ConwayTx.Proofs.Value.Wire

/-!
# Quantities within their range

A value is not written just where a quantity is above the words, and a mint where one is outside the
signed words (`refused_toCbor_iff`, `refused_mintToCbor_iff`). What is written has every quantity as
it is, positive ones of values and all of mints (`Value.funds?_toCbor`, `quantity_mintToCbor`).
-/

namespace ConwayTx

open Outcome

/-- A number is outside of the range of its field. -/
def EncodeError.IsRange (e : EncodeError) : Prop := ∃ fault, e = .outOfRange fault

theorem Amount.signed?_eq_none_iff {n : ℤ} : signed? n = none ↔ n < -2 ^ 63 ∨ 2 ^ 63 - 1 < n := by
  have least : Int64.minValue.toInt = -2 ^ 63 := by decide
  have most : Int64.maxValue.toInt = 2 ^ 63 - 1 := by decide
  unfold signed?
  split
  · simp only [reduceCtorEq, false_iff]
    omega
  · simp only [true_iff]
    omega

/-! ### Reading -/

namespace Cbor

/-- The quantity that an asset map has of an asset. -/
def quantity (c : Cbor) (p : PolicyId) (n : AssetName) : ℤ :=
  (((c.under? p.bytes).bind (·.under? n.bytes)).bind integer?).getD 0

/-- What a value is worth: lovelace alone, or lovelace and an asset map. -/
def funds? : Cbor → Option Funds
  | unsigned coin => some (.ofCoin coin.toNat)
  | array [unsigned coin, assets] =>
    some (coin.toNat, fun asset => assets.quantity asset.1 asset.2)
  | _ => none

end Cbor

namespace MultiAsset

variable {m : MultiAsset} {keep : Int → Bool} {write : Int → Except EncodeError Cbor}

/-! ### Refused quantities -/

theorem exists_kept_iff (property : ℤ → Prop) :
    (∃ x ∈ m.kept keep, ∃ held ∈ x.2, property held.2) ↔
      ∃ e ∈ m.listed, keep e.2.2 = true ∧ property e.2.2 := by
  constructor
  · rintro ⟨x, mem, held, inside, holds⟩
    obtain ⟨listed, _⟩ := List.mem_filter.1 mem
    obtain ⟨⟨p, names⟩, entry, rfl⟩ := List.mem_map.1 listed
    obtain ⟨named, kept⟩ := List.mem_filter.1 inside
    exact ⟨(p, held.1, held.2),
      List.mem_flatMap.2 ⟨_, entry, List.mem_map.2 ⟨held, named, rfl⟩⟩, kept, holds⟩
  · rintro ⟨e, mem, kept, holds⟩
    obtain ⟨⟨p, names⟩, entry, within⟩ := List.mem_flatMap.1 mem
    obtain ⟨held, named, rfl⟩ := List.mem_map.1 within
    have inside : held ∈ names.entries.filter fun e => keep e.2 := List.mem_filter.2 ⟨named, kept⟩
    refine ⟨(p, _), List.mem_filter.2 ⟨List.mem_map.2 ⟨_, entry, rfl⟩, ?_⟩, held, inside, holds⟩
    simpa [List.isEmpty_iff] using List.ne_nil_of_mem inside

theorem refused_keptToCbor_iff :
    Refused (keptToCbor write (m.kept keep)) ↔
      ∃ e ∈ m.listed, keep e.2.2 = true ∧ Refused (write e.2.2) := by
  rw [keptToCbor, refused_map_iff, refused_mapM_iff,
    ← exists_kept_iff fun q => Refused (write q)]
  refine exists_congr fun x => and_congr_right fun _ => ?_
  refine refused_bind_pure_iff.trans ?_
  rw [quantitiesToCbor, refused_map_iff, refused_mapM_iff]
  exact exists_congr fun held => and_congr_right fun _ => refused_bind_pure_iff

/-- Assets that are not listed have the quantity zero. -/
theorem exists_listed_iff (property : ℤ → Prop) (zero : ¬ property 0) :
    (∃ e ∈ m.listed, property e.2.2) ↔ ∃ p n, property (m.quantity p n) := by
  constructor
  · rintro ⟨⟨p, n, q⟩, mem, holds⟩
    exact ⟨p, n, (quantity_of_mem_listed mem).symm ▸ holds⟩
  · rintro ⟨p, n, holds⟩
    unfold quantity at holds
    cases found : (m.find? p).bind (·.find? n) with
    | none =>
      rw [found] at holds
      exact absurd holds zero
    | some q =>
      rw [found] at holds
      exact ⟨(p, n, q), mem_listed.2 found, holds⟩

theorem ranged_keptToCbor (each : ∀ q, Fails EncodeError.IsRange (write q))
    (policies : List (PolicyId × List (AssetName × Int))) :
    Fails EncodeError.IsRange (keptToCbor write policies) := by
  refine .bind (.mapM fun x _ => .bind ?_ fun _ _ => .ok _) fun _ _ => .ok _
  exact .bind (.mapM fun held _ => (each held.2).bind fun _ _ => .ok _) fun _ _ => .ok _

theorem ranged_heldToCbor (q : ℤ) : Fails EncodeError.IsRange (heldToCbor q) := by
  unfold heldToCbor
  split
  · exact .ok _
  · exact .error ⟨_, rfl⟩

theorem ranged_mintedToCbor (q : ℤ) : Fails EncodeError.IsRange (mintedToCbor q) := by
  unfold mintedToCbor
  split
  · exact .ok _
  · exact .error ⟨_, rfl⟩

theorem refused_heldToCbor_iff {q : ℤ} : Refused (heldToCbor q) ↔ 2 ^ 64 - 1 < q := by
  have largest : Amount.largest = 2 ^ 64 - 1 := by decide
  unfold heldToCbor
  split
  · rename_i word fits
    have bound := word.toNat_le_largest
    have number := Amount.ofNat?_eq_some_iff.1 fits
    exact iff_of_false (not_refused_ok _) (by omega)
  · rename_i above
    have bound := Amount.ofNat?_eq_none_iff.1 above
    exact iff_of_true (refused_error _) (by omega)

theorem refused_mintedToCbor_iff {q : ℤ} :
    Refused (mintedToCbor q) ↔ q < -2 ^ 63 ∨ 2 ^ 63 - 1 < q := by
  rw [← Amount.signed?_eq_none_iff]
  unfold mintedToCbor
  split
  · rename_i word fits
    rw [fits]
    exact iff_of_false (not_refused_ok _) nofun
  · rename_i none
    exact iff_of_true (refused_error _) none

theorem refused_toCbor_iff : Refused m.toCbor ↔ ∃ p n, 2 ^ 64 - 1 < m.quantity p n := by
  rw [toCbor, refused_keptToCbor_iff, ← exists_listed_iff (2 ^ 64 - 1 < ·) (by decide)]
  refine exists_congr fun e => and_congr_right fun _ => ?_
  rw [refused_heldToCbor_iff, decide_eq_true_iff]
  exact and_iff_right_of_imp fun above => by omega

theorem refused_mintToCbor_iff :
    Refused m.mintToCbor ↔ ∃ p n, m.quantity p n < -2 ^ 63 ∨ 2 ^ 63 - 1 < m.quantity p n := by
  rw [mintToCbor, refused_keptToCbor_iff,
    ← exists_listed_iff (fun q => q < -2 ^ 63 ∨ 2 ^ 63 - 1 < q) (by decide)]
  refine exists_congr fun e => and_congr_right fun _ => ?_
  rw [refused_mintedToCbor_iff, decide_eq_true_iff]
  exact and_iff_right_of_imp fun outside zero => by omega

/-! ### Written quantities -/

theorem find?_kept (p : PolicyId) :
    SortedMap.findIn p (m.kept keep) = ((m.restrict keep).find? p).map SortedMap.entries := by
  rw [kept_eq]
  exact SortedMap.find?_mapValues (m.restrict keep) SortedMap.entries p

/-- An asset map that is written has the quantities that are kept. -/
theorem quantity_keptToCbor {c : Cbor} (written : keptToCbor write (m.kept keep) = .ok c)
    (reads : ∀ q item, keep q = true → write q = .ok item → item.integer? = some q)
    (p : PolicyId) (n : AssetName) : c.quantity p n = (m.restrict keep).quantity p n := by
  obtain ⟨policies, entries, written⟩ := bind_ok written
  obtain rfl := pure_ok written
  have policy := Cbor.under?_written (fun p : PolicyId => p.bytes) (fun _ _ => Digest.ext) entries p
  rw [find?_kept] at policy
  rw [Cbor.quantity, quantity]
  generalize (Cbor.map policies).under? p.bytes = found at policy
  cases listed : (m.restrict keep).find? p with
  | none =>
    rw [listed] at policy
    cases policy
    rfl
  | some names =>
    rw [listed] at policy
    obtain ⟨mem, written⟩ | _ := policy
    obtain ⟨quantities, entries, written⟩ := bind_ok written
    obtain rfl := pure_ok written
    have name := Cbor.under?_written AssetName.bytes (fun _ _ => AssetName.ext) entries n
    show ((Option.bind ((Cbor.map quantities).under? n.bytes) Cbor.integer?).getD 0) =
      (names.find? n).getD 0
    rw [SortedMap.find?]
    generalize (Cbor.map quantities).under? n.bytes = found at name
    generalize SortedMap.findIn n names.entries = held at name
    obtain ⟨inside, wrote⟩ | _ := name
    · rw [Option.bind_some, reads _ _ (keep_of_mem_kept mem inside) wrote]
    · rfl

theorem integer?_heldToCbor {q : ℤ} {item : Cbor} (above : 0 < q)
    (written : heldToCbor q = .ok item) : item.integer? = some q := by
  unfold heldToCbor at written
  split at written
  · rename_i word fits
    cases written
    rw [Cbor.integer?, Amount.ofNat?_eq_some_iff.1 fits, Int.toNat_of_nonneg above.le]
  · cases written

theorem integer?_mintedToCbor {q : ℤ} {item : Cbor} (written : mintedToCbor q = .ok item) :
    item.integer? = some q := by
  unfold mintedToCbor at written
  split at written
  · rename_i word fits
    cases written
    rw [Cbor.integer?_ofInt64, toInt_signed? fits]
  · cases written

theorem quantity_toCbor {c : Cbor} (written : m.toCbor = .ok c) (p : PolicyId) (n : AssetName) :
    c.quantity p n = max 0 (m.quantity p n) := by
  have positive (q : ℤ) : (if decide (0 < q) = true then q else 0) = max 0 q := by
    by_cases above : 0 < q
    · simp [above, above.le]
    · simp [above, Int.not_lt.1 above]
  rw [quantity_keptToCbor written fun q item above => integer?_heldToCbor (of_decide_eq_true above),
    quantity_restrict positive]

theorem quantity_mintToCbor {c : Cbor} (written : m.mintToCbor = .ok c) (p : PolicyId)
    (n : AssetName) : c.quantity p n = m.quantity p n := by
  have whole (q : ℤ) : (if decide (q ≠ 0) = true then q else 0) = q := by
    by_cases zero : q = 0 <;> simp [zero]
  rw [quantity_keptToCbor written fun q item _ => integer?_mintedToCbor, quantity_restrict whole]

end MultiAsset

namespace Value

/-- Lovelace and the quantities above zero; others are not written. -/
def positiveFunds (v : Value) : Funds :=
  (v.coin.toNat, fun asset => max 0 (v.quantity asset.1 asset.2))

theorem ranged_toCbor (v : Value) : Fails EncodeError.IsRange v.toCbor := by
  unfold toCbor
  split
  · refine .bind ?_ fun _ _ => .ok _
    exact MultiAsset.ranged_keptToCbor MultiAsset.ranged_heldToCbor _
  · exact .ok _

theorem refused_toCbor_iff {v : Value} :
    Refused v.toCbor ↔ ∃ p n, 2 ^ 64 - 1 < v.quantity p n := by
  unfold toCbor
  split
  · exact refused_bind_pure_iff.trans MultiAsset.refused_toCbor_iff
  · rename_i none
    refine iff_of_false (not_refused_ok _) ?_
    rintro ⟨p, n, above⟩
    exact none (hasAssets_iff.2 ⟨p, n, by omega⟩)

theorem funds?_toCbor {v : Value} {c : Cbor} (written : v.toCbor = .ok c) :
    c.funds? = some v.positiveFunds := by
  rcases toCbor_ok written with ⟨_, assets, entries, rfl⟩ | ⟨none, rfl⟩
  · rw [Cbor.funds?]
    refine congrArg some (Prod.ext rfl (funext fun asset => ?_))
    exact MultiAsset.quantity_toCbor entries asset.1 asset.2
  · rw [Cbor.funds?]
    refine congrArg some (Prod.ext rfl (funext fun asset => ?_))
    show 0 = max 0 (v.quantity asset.1 asset.2)
    by_contra above
    have some := hasAssets_iff.2 ⟨asset.1, asset.2, (by omega : 0 < v.quantity asset.1 asset.2)⟩
    rw [none] at some
    cases some

end Value

end ConwayTx
