import ConwayTx.Proofs.SortedMap
import ConwayTx.Value

/-!
# Quantities

What each operation on values does to the quantity of an asset. Folds over the entries of a map
are opened by `sumAt`, the sum of the entries of one asset.
-/

namespace ConwayTx

namespace MultiAsset

/-- The weights of the entries of one asset, summed up. -/
def sumAt (policy : PolicyId) (name : AssetName) (weight : Int → Int)
    (entries : List (PolicyId × AssetName × Int)) : Int :=
  (entries.map fun e => if e.1 = policy ∧ e.2.1 = name then weight e.2.2 else 0).sum

variable {m : MultiAsset} {policy : PolicyId} {name : AssetName} {weight : Int → Int}

@[simp] theorem sumAt_nil : sumAt policy name weight [] = 0 := rfl

@[simp] theorem sumAt_cons (e : PolicyId × AssetName × Int)
    (rest : List (PolicyId × AssetName × Int)) :
    sumAt policy name weight (e :: rest) =
      (if e.1 = policy ∧ e.2.1 = name then weight e.2.2 else 0) + sumAt policy name weight rest := by
  simp [sumAt]

/-- A fold whose steps add what an entry weighs for the asset. -/
theorem foldl_sumAt {α : Type} {step : α → PolicyId × AssetName × Int → α} (read : α → Int)
    (weight : Int → Int) {l : List (PolicyId × AssetName × Int)} {start : α}
    (each : ∀ s e, read (step s e) =
      read s + if e.1 = policy ∧ e.2.1 = name then weight e.2.2 else 0) :
    read (l.foldl step start) = read start + sumAt policy name weight l := by
  induction l generalizing start with
  | nil => simp
  | cons e rest ih => rw [List.foldl_cons, ih, each, sumAt_cons, add_assoc]

theorem sumAt_append (l₁ l₂ : List (PolicyId × AssetName × Int)) :
    sumAt policy name weight (l₁ ++ l₂) =
      sumAt policy name weight l₁ + sumAt policy name weight l₂ := by
  simp [sumAt]

theorem sumAt_filter (p : Int → Bool) (l : List (PolicyId × AssetName × Int)) :
    sumAt policy name weight (l.filter fun e => p e.2.2) =
      sumAt policy name (fun q => if p q then weight q else 0) l := by
  induction l with
  | nil => rfl
  | cons e rest ih =>
    rw [List.filter_cons]
    by_cases keep : p e.2.2 = true
    · simp [keep, ih]
    · simp [keep, ih]

/-- Each asset has one entry at most. -/
theorem sumAt_listed (zero : weight 0 = 0) :
    sumAt policy name weight m.listed = weight (m.quantity policy name) := by
  have inner (names : AssetBundle) (p : PolicyId) :
      sumAt policy name weight (names.entries.map fun e => (p, e.1, e.2)) =
        if p = policy then ((names.find? name).map weight).getD 0 else 0 := by
    rw [← SortedMap.sum_entries_at]
    by_cases same : p = policy <;> simp [sumAt, same, Function.comp_def]
  have outer : sumAt policy name weight m.listed =
      (m.entries.map fun e => if e.1 = policy then ((e.2.find? name).map weight).getD 0 else 0).sum := by
    simp only [listed]
    induction m.entries with
    | nil => rfl
    | cons e rest ih =>
      rw [List.flatMap_cons, sumAt_append, ih, List.map_cons, List.sum_cons, ← inner e.2 e.1]
  rw [outer, SortedMap.sum_entries_at m policy fun names => ((names.find? name).map weight).getD 0]
  unfold quantity
  cases m.find? policy with
  | none => simp [zero]
  | some names => cases found : names.find? name <;> simp [found, zero]

theorem mem_listed {q : Int} :
    (policy, name, q) ∈ m.listed ↔ (m.find? policy).bind (·.find? name) = some q := by
  simp [listed, Option.bind_eq_some_iff, SortedMap.find?_eq_some_iff]

theorem quantity_of_mem_listed {q : Int} (mem : (policy, name, q) ∈ m.listed) :
    m.quantity policy name = q := by
  simp [quantity, mem_listed.1 mem]

theorem mem_positive {q : Int} :
    (policy, name, q) ∈ m.positive ↔ 0 < q ∧ m.quantity policy name = q := by
  rw [positive, List.mem_filter]
  constructor
  · rintro ⟨mem, above⟩
    exact ⟨by simpa using above, quantity_of_mem_listed mem⟩
  · rintro ⟨above, same⟩
    refine ⟨mem_listed.2 ?_, by simpa using above⟩
    unfold quantity at same
    cases found : (m.find? policy).bind (·.find? name) with
    | none => rw [found, Option.getD_none] at same; omega
    | some q' => rw [found, Option.getD_some] at same; rw [same]

theorem sumAt_positive :
    sumAt policy name weight m.positive =
      if 0 < m.quantity policy name then weight (m.quantity policy name) else 0 := by
  have filtered := @sumAt_filter policy name weight (fun q => decide (0 < q)) m.listed
  refine filtered.trans ((sumAt_listed (by simp)).trans ?_)
  simp

/-! ### The order of entries -/

/-- Policies first, names within a policy. -/
def Before (a b : PolicyId × AssetName) : Prop :=
  compare a.1 b.1 = .lt ∨ a.1 = b.1 ∧ compare a.2 b.2 = .lt

theorem Before.asymm {a b : PolicyId × AssetName} (h : Before a b) : ¬ Before b a := by
  rintro (back | ⟨same, back⟩)
  · rcases h with first | ⟨same, _⟩
    · exact Std.OrientedCmp.not_lt_of_lt first back
    · rw [same] at back; simp at back
  · rcases h with first | ⟨_, first⟩
    · rw [same] at first; simp at first
    · exact Std.OrientedCmp.not_lt_of_lt first back

theorem listed_increasing (m : MultiAsset) :
    (m.listed.map fun e => (e.1, e.2.1)).Pairwise Before := by
  rw [List.pairwise_map, listed, List.pairwise_flatMap]
  constructor
  · rintro ⟨p, names⟩ _
    refine List.pairwise_map.2 (names.increasing.imp ?_)
    intro a b before
    exact .inr ⟨rfl, before⟩
  · refine m.increasing.imp ?_
    intro a b before x hx y hy
    obtain ⟨_, _, rfl⟩ := List.mem_map.1 hx
    obtain ⟨_, _, rfl⟩ := List.mem_map.1 hy
    exact .inl before

theorem positive_increasing (m : MultiAsset) :
    (m.positive.map fun e => (e.1, e.2.1)).Pairwise Before :=
  m.listed_increasing.sublist (List.filter_sublist.map _)

/-! ### Operations on maps -/

theorem quantity_bump (m : MultiAsset) (policy p : PolicyId) (name n : AssetName) (q : Int) :
    (m.bump policy name q).quantity p n =
      m.quantity p n + if p = policy ∧ n = name then q else 0 := by
  simp only [quantity, bump, SortedMap.find?_insert]
  by_cases samePolicy : p = policy
  · subst samePolicy
    by_cases sameName : n = name
    · subst sameName
      cases m.find? p <;> simp [SortedMap.find?_insert]
    · cases m.find? p <;> simp [SortedMap.find?_insert, sameName]
  · simp [samePolicy]

theorem quantity_addAll (m other : MultiAsset) (sign : Int) (p : PolicyId) (n : AssetName) :
    (m.addAll other sign).quantity p n = m.quantity p n + sign * other.quantity p n := by
  rw [addAll, foldl_sumAt (fun m : MultiAsset => m.quantity p n) (sign * ·), sumAt_listed (by simp)]
  intro m e
  show (m.bump e.1 e.2.1 (sign * e.2.2)).quantity p n = _
  rw [quantity_bump]
  simp only [eq_comm (a := p), eq_comm (a := n)]

/-- A change to every bundle that treats each quantity by itself. -/
theorem quantity_mapValues (m : MultiAsset) {f : AssetBundle → AssetBundle} {g : Int → Int}
    (zero : g 0 = 0)
    (each : ∀ names n, ((f names).find? n).getD 0 = g ((names.find? n).getD 0))
    (p : PolicyId) (n : AssetName) :
    MultiAsset.quantity (m.mapValues f) p n = g (m.quantity p n) := by
  simp only [quantity, SortedMap.find?_mapValues]
  cases m.find? p with
  | none => simp [zero]
  | some names => simpa using each names n

theorem find?_keep (names : AssetBundle) (keep : Int → Bool) (n : AssetName) :
    ((names.filter fun _ q => keep q).find? n).getD 0 =
      if keep ((names.find? n).getD 0) then (names.find? n).getD 0 else 0 := by
  rw [SortedMap.find?_filter]
  cases found : names.find? n with
  | none => simp
  | some q => by_cases kept : keep q = true <;> simp [Option.filter, kept]

@[simp] theorem quantity_prune (m : MultiAsset) (p : PolicyId) (n : AssetName) :
    m.prune.quantity p n = m.quantity p n := by
  have nonzero (names : AssetBundle) (n : AssetName) :
      ((names.filter fun _ q => q ≠ 0).find? n).getD 0 = (names.find? n).getD 0 := by
    rw [find?_keep]
    by_cases zero : (names.find? n).getD 0 = 0 <;> simp [zero]
  refine Eq.trans ?_ (quantity_mapValues m (g := id) rfl nonzero p n)
  simp only [quantity, prune, SortedMap.find?_filter]
  cases (m.mapValues fun names => names.filter fun _ q => q ≠ 0).find? p with
  | none => simp
  | some names =>
    cases empty : names.isEmpty with
    | false => simp [Option.filter, empty]
    | true => simp [Option.filter, empty, SortedMap.find?_eq_none_of_isEmpty empty n]

@[simp] theorem quantity_empty (p : PolicyId) (n : AssetName) :
    (∅ : MultiAsset).quantity p n = 0 := rfl

end MultiAsset

/-! ### Operations on values -/

namespace Value

@[simp] theorem coin_prune (v : Value) : v.prune.coin = v.coin := by
  unfold prune; split <;> rfl

@[simp] theorem quantity_prune (v : Value) (p : PolicyId) (n : AssetName) :
    v.prune.quantity p n = v.quantity p n := by
  obtain ⟨coin, assets⟩ := v
  cases assets with
  | none => rfl
  | some m =>
    rw [quantity, quantity, bundle, bundle, prune, Option.getD_some, ← m.quantity_prune p n]
    cases empty : m.prune.isEmpty with
    | true =>
      simp [empty, MultiAsset.quantity, SortedMap.find?_eq_none_of_isEmpty empty]
    | false => simp [empty]

@[simp] theorem quantity_ofCoin (coin : Amount) (p : PolicyId) (n : AssetName) :
    (ofCoin coin).quantity p n = 0 := rfl

theorem quantity_withAssets (coin : Amount) (m : MultiAsset) (p : PolicyId) (n : AssetName) :
    (withAssets coin m).quantity p n = m.quantity p n := by
  rw [withAssets, quantity_prune]; rfl

theorem coin_withAssets (coin : Amount) (m : MultiAsset) : (withAssets coin m).coin = coin :=
  coin_prune _

theorem quantity_addAsset (v : Value) (policy p : PolicyId) (name n : AssetName) (q : Int) :
    (v.addAsset policy name q).quantity p n =
      v.quantity p n + if p = policy ∧ n = name then q else 0 := by
  rw [addAsset, quantity_prune]
  exact MultiAsset.quantity_bump v.bundle policy p name n q

@[simp] theorem coin_addAsset (v : Value) (policy : PolicyId) (name : AssetName) (q : Int) :
    (v.addAsset policy name q).coin = v.coin := coin_prune _

theorem mem_positive {v : Value} {policy : PolicyId} {name : AssetName} {q : Int} :
    (policy, name, q) ∈ v.positive ↔ 0 < q ∧ v.quantity policy name = q :=
  MultiAsset.mem_positive

/-- A sum adds lovelace and every asset exactly. -/
theorem of_add_ok {a b v : Value} (sum : a.add b = .ok v) :
    v.coin.toNat = a.coin.toNat + b.coin.toNat ∧
      ∀ p n, v.quantity p n = a.quantity p n + b.quantity p n := by
  unfold add at sum
  split at sum
  · cases sum
  · rename_i coin fits
    have exact_coin := Amount.ofNat?_eq_some_iff.1 fits
    split at sum
    · rename_i none
      cases sum
      refine ⟨by simpa using exact_coin, fun p n => ?_⟩
      have nothing : b.quantity p n = 0 := by simp [quantity, bundle, none]
      rw [quantity_prune, nothing, add_zero]; rfl
    · rename_i assets some
      cases sum
      refine ⟨by simpa using exact_coin, fun p n => ?_⟩
      have added := MultiAsset.quantity_addAll a.bundle assets 1 p n
      rw [one_mul] at added
      have listed : b.quantity p n = assets.quantity p n := by simp [quantity, bundle, some]
      rw [quantity_prune, listed]
      exact added

/-- A difference subtracts lovelace and every asset exactly, and nothing listed goes below zero. -/
theorem of_sub_ok {a b v : Value} (difference : a.sub b = .ok v) :
    v.coin.toNat + b.coin.toNat = a.coin.toNat ∧
      (∀ p n, v.quantity p n + b.quantity p n = a.quantity p n) ∧
      ∀ p n q, (p, n, q) ∈ b.bundle.listed → q ≤ a.quantity p n := by
  unfold sub at difference
  split at difference
  · cases difference
  · rename_i enough
    have coins : (a.coin - b.coin).toNat + b.coin.toNat = a.coin.toNat := by
      have le : b.coin ≤ a.coin := UInt64.not_lt.1 enough
      rw [UInt64.toNat_sub_of_le _ _ le]
      have := UInt64.le_iff_toNat_le.1 le
      omega
    split at difference
    · cases difference
    · rename_i covered
      have held : ∀ p n q, (p, n, q) ∈ b.bundle.listed → q ≤ a.quantity p n := by
        intro p n q mem
        have := List.find?_eq_none.1 covered _ mem
        simp only [decide_eq_true_eq] at this
        omega
      split at difference
      · rename_i none
        cases difference
        refine ⟨by simpa using coins, fun p n => ?_, held⟩
        have nothing : b.quantity p n = 0 := by simp [quantity, bundle, none]
        rw [quantity_prune, nothing, add_zero]; rfl
      · rename_i assets some
        cases difference
        refine ⟨by simpa using coins, fun p n => ?_, held⟩
        have listed : b.quantity p n = assets.quantity p n := by simp [quantity, bundle, some]
        have taken := MultiAsset.quantity_addAll a.bundle assets (-1) p n
        rw [quantity_prune, listed]
        show (a.bundle.addAll assets (-1)).quantity p n + assets.quantity p n = a.bundle.quantity p n
        rw [taken]
        ring

theorem covers_iff {a b : Value} :
    a.covers b = true ↔ b.coin.toNat ≤ a.coin.toNat ∧
      ∀ p n, 0 < b.quantity p n → b.quantity p n ≤ a.quantity p n := by
  simp only [covers, Bool.and_eq_true, decide_eq_true_eq, List.all_eq_true, UInt64.le_iff_toNat_le]
  refine and_congr_right fun _ => ⟨fun all p n above => ?_, fun all e mem => ?_⟩
  · exact all (p, n, b.quantity p n) (mem_positive.2 ⟨above, rfl⟩)
  · obtain ⟨p, n, q⟩ := e
    obtain ⟨above, rfl⟩ := mem_positive.1 mem
    exact all p n above

theorem covers_of_sub {a b v : Value} (difference : a.sub b = .ok v) : a.covers b = true := by
  obtain ⟨coins, _, held⟩ := of_sub_ok difference
  refine covers_iff.2 ⟨by omega, fun p n above => held p n _ ?_⟩
  exact (List.mem_filter.1 (mem_positive.2 ⟨above, rfl⟩)).1

/-- What is needed of an asset drops by what is supplied, down to zero. -/
theorem quantity_monus (required supplied : Value) (p : PolicyId) (n : AssetName) :
    (required.monus supplied).quantity p n =
      if 0 < required.quantity p n then max 0 (required.quantity p n - supplied.quantity p n)
      else 0 := by
  rw [monus, MultiAsset.foldl_sumAt (fun v : Value => v.quantity p n)
    (fun q => max 0 (q - supplied.quantity p n)), quantity_ofCoin, zero_add, positive,
    MultiAsset.sumAt_positive]
  · rfl
  intro v e
  obtain ⟨policy, name, q⟩ := e
  simp only [apply_ite (quantity · p n), quantity_addAsset, eq_comm (a := p), eq_comm (a := n)]
  by_cases same : policy = p ∧ name = n
  · obtain ⟨rfl, rfl⟩ := same
    simp only [and_self, if_true]
    split <;> omega
  · simp [same]

theorem coin_monus (required supplied : Value) :
    (required.monus supplied).coin.toNat = required.coin.toNat - supplied.coin.toNat := by
  have kept : (required.monus supplied).coin =
      (ofCoin (Amount.clamp (required.coin.toNat - supplied.coin.toNat))).coin := by
    refine List.foldlRecOn (motive := fun v : Value => v.coin = _) _ _ rfl fun v same e _ => ?_
    rw [← same]
    dsimp only
    split
    · exact coin_addAsset _ _ _ _
    · rfl
  have small := Amount.toNat_le_largest required.coin
  rw [kept, ofCoin, Amount.toNat_clamp, min_eq_left (by omega)]

end Value

end ConwayTx
