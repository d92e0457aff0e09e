import ConwayTx.Proofs.Selection.Candidates

/-!
# Completeness of the selection

A selection fails only where nothing could have helped: the total it is measured against is all
that is committed and all that is unused (`select_complete`). The invariant of a run (`Sound`) is
that nothing offered is lost, and that what is outstanding is what the picks leave of the
requirement.
-/

namespace ConwayTx.Selection

/-! ### Picks for one asset -/

section Asset

variable {held : Utxo → Int}

theorem perm_of_extract? {p : Utxo → Bool} {l others : List Utxo} {u : Utxo}
    (h : extract? p l = some (u, others)) : (u :: others).Perm l ∧ p u = true := by
  induction l generalizing u others with
  | nil => simp [extract?] at h
  | cons v rest ih =>
    rw [extract?] at h
    split at h
    · rename_i first
      cases h
      exact ⟨List.Perm.refl _, first⟩
    · obtain ⟨⟨w, tail⟩, found, same⟩ := Option.map_eq_some_iff.1 h
      cases same
      obtain ⟨perm, holds⟩ := ih found
      exact ⟨(List.Perm.swap _ _ _).trans (perm.cons v), holds⟩

theorem gather_perm (short : Int) (l : List Utxo) :
    ((gather held short l).picks ++ (gather held short l).others).Perm l := by
  fun_induction gather held short l with
  | case1 => exact List.Perm.refl _
  | case2 => exact List.Perm.refl _
  | case3 short u rest _ _ g ih => exact ih.cons u
  | case4 short u rest _ _ g ih => exact List.perm_middle.trans (ih.cons u)

theorem gather_short (short : Int) (l : List Utxo) :
    (gather held short l).short = short - ((gather held short l).picks.map held).sum := by
  fun_induction gather held short l with
  | case1 => simp
  | case2 => simp
  | case3 short u rest _ _ g ih =>
    show (gather held (short - held u) rest).short =
      short - ((u :: (gather held (short - held u) rest).picks).map held).sum
    rw [ih, List.map_cons, List.sum_cons]
    omega
  | case4 short u rest _ _ g ih => exact ih

/-- Holders are left only once nothing is short. -/
theorem gather_others {short : Int} {l : List Utxo} (missing : 0 < (gather held short l).short) :
    ∀ u ∈ (gather held short l).others, held u ≤ 0 := by
  fun_induction gather held short l with
  | case1 => simp
  | case2 short u rest enough => exact absurd missing (not_lt.2 enough)
  | case3 short u rest _ _ g ih => exact ih missing
  | case4 short u rest _ none g ih =>
    intro v mem
    rcases List.mem_cons.1 mem with rfl | later
    · omega
    · exact ih missing v later

theorem pickAsset_perm (missing : Int) (l : List Utxo) :
    ((pickAsset held missing l).picks ++ (pickAsset held missing l).others).Perm l := by
  unfold pickAsset
  split
  · rename_i found
    exact (perm_of_extract? found).1
  · exact ((List.reverse_perm _).append_right _).trans (gather_perm missing l)

theorem pickAsset_short (missing : Int) (l : List Utxo) :
    (pickAsset held missing l).short = missing - ((pickAsset held missing l).picks.map held).sum := by
  unfold pickAsset
  split
  · simp
  · show (gather held missing l).short = missing - ((gather held missing l).picks.reverse.map held).sum
    rw [gather_short, ((List.reverse_perm _).map held).sum_eq]

theorem pickAsset_others {missing : Int} {l : List Utxo}
    (short : 0 < (pickAsset held missing l).short) :
    ∀ u ∈ (pickAsset held missing l).others, held u ≤ 0 := by
  unfold pickAsset at short ⊢
  split at short
  · rename_i found
    have enough := of_decide_eq_true (perm_of_extract? found).2
    simp only at short
    omega
  · exact gather_others short

end Asset

/-! ### Picks for everything -/

theorem perm_of_coverAssets {assets : List (PolicyId × AssetName × Int)} {start result : Progress}
    (h : coverAssets assets start = .ok result) :
    (result.selected ++ result.candidates).Perm (start.selected ++ start.candidates) := by
  fun_induction coverAssets assets start with
  | case1 =>
    cases h
    exact List.Perm.refl _
  | case2 _ _ _ _ _ _ _ ih => exact ih h
  | case3 => cases h
  | case4 policy name _ more progress missing _ g _ ih =>
    refine (ih h).trans ?_
    rw [List.append_assoc]
    exact (pickAsset_perm missing progress.candidates).append_left _

theorem prefix_takeCoin (needed : Nat) (l : List Utxo) : (takeCoin needed l).1 <+: l := by
  induction l generalizing needed with
  | nil => exact List.prefix_rfl
  | cons u rest ih =>
    rw [takeCoin]
    split
    · exact List.nil_prefix
    · exact (List.prefix_cons_inj u).2 (ih _)

theorem coverCoin_ok {required committed : Value} {progress : Progress} {picks : List Utxo}
    (h : coverCoin required committed progress = .ok picks) :
    ∃ others, picks ++ others = progress.selected ++ progress.candidates := by
  simp only [coverCoin] at h
  split at h
  · cases h
    obtain ⟨others, split⟩ := prefix_takeCoin progress.remaining.coin.toNat progress.candidates
    exact ⟨others, by rw [List.append_assoc, split]⟩
  · cases found : available committed progress.selected progress.candidates <;>
      simp [found, bind, Except.bind] at h

/-- No candidate is picked twice. -/
theorem perm_of_selectFrom {l picks : List Utxo} {required committed : Value}
    (h : selectFrom l required committed = .ok picks) : ∃ others, (picks ++ others).Perm l := by
  simp only [selectFrom] at h
  split at h
  · cases h
  · rename_i covered
    obtain ⟨others, split⟩ := coverCoin_ok h
    exact ⟨others, split ▸ perm_of_coverAssets covered⟩

theorem nodup_refs_of_selectFrom {pool picks : List Utxo} {required committed : Value}
    (sound : Utxo.Consistent pool) (h : selectFrom (ranked pool) required committed = .ok picks) :
    (picks.map Utxo.ref).Nodup := by
  obtain ⟨others, split⟩ := perm_of_selectFrom h
  have distinct := (split.map Utxo.ref).nodup_iff.2 (nodup_refs_ranked sound)
  rw [List.map_append] at distinct
  exact (List.nodup_append.1 distinct).1

/-! ### What is outstanding -/

theorem quantity_held (utxos : List Utxo) (policy : PolicyId) (name : AssetName) :
    (utxos.map (·.value.quantity policy name)).sum = (Utxo.held utxos).2 (policy, name) := by
  induction utxos with
  | nil => rfl
  | cons u rest ih =>
    rw [List.map_cons, List.sum_cons, ih, Utxo.held_cons]
    rfl

/-- `remaining` is what `got` leaves of the requirement; nothing goes below zero. -/
structure Outstanding (required : Value) (got : Funds) (remaining : Value) : Prop where
  coin : remaining.coin.toNat = required.coin.toNat - got.1
  quantity : ∀ policy name,
    remaining.quantity policy name = max 0 (required.quantity policy name - got.2 (policy, name))

variable {required committed remaining : Value} {got : Funds}

theorem outstanding_committed (needs : required.NoNegative) (sound : committed.NoNegative) :
    Outstanding required committed.funds (required.monus committed) := by
  refine ⟨Value.coin_monus required committed, fun policy name => ?_⟩
  have := needs policy name
  have := sound policy name
  show _ = max 0 (required.quantity policy name - committed.quantity policy name)
  rw [Value.quantity_monus]
  split <;> omega

theorem Outstanding.monus {u : Value} (outstanding : Outstanding required got remaining)
    (sound : u.NoNegative) : Outstanding required (got + u.funds) (remaining.monus u) := by
  constructor
  · rw [Value.coin_monus, outstanding.coin, Nat.sub_sub]
    rfl
  · intro policy name
    have := sound policy name
    show _ = max 0 (required.quantity policy name - (got.2 (policy, name) + u.quantity policy name))
    rw [Value.quantity_monus, outstanding.quantity]
    split <;> omega

theorem Outstanding.picks {picks : List Utxo} (outstanding : Outstanding required got remaining)
    (sound : ∀ u ∈ picks, u.value.NoNegative) :
    Outstanding required (got + Utxo.held picks)
      (picks.foldl (fun v u => v.monus u.value) remaining) := by
  induction picks generalizing got remaining with
  | nil => simpa using outstanding
  | cons u rest ih =>
    rw [List.foldl_cons, Utxo.held_cons, ← add_assoc]
    exact ih (outstanding.monus (sound u (.head _))) fun v mem => sound v (.tail _ mem)

theorem Outstanding.covered {policy : PolicyId} {name : AssetName}
    (outstanding : Outstanding required got remaining)
    (enough : remaining.quantity policy name ≤ 0) :
    required.quantity policy name ≤ got.2 (policy, name) := by
  have := outstanding.quantity policy name
  omega

/-! ### Assets -/

/-- What a run has picked and not picked is what it was offered. -/
structure Sound (offered : List Utxo) (required committed : Value) (progress : Progress) : Prop where
  kept : (progress.selected ++ progress.candidates).Perm offered
  outstanding :
    Outstanding required (committed.funds + Utxo.held progress.selected) progress.remaining

variable {offered : List Utxo} {assets : List (PolicyId × AssetName × Int)}
  {progress result : Progress}

theorem Sound.total (sound : Sound offered required committed progress) :
    committed.funds + Utxo.held offered =
      committed.funds + Utxo.held progress.selected + Utxo.held progress.candidates := by
  rw [← Utxo.held_perm sound.kept, Utxo.held_append, add_assoc]

theorem Sound.picks_le (sound : Sound offered required committed progress)
    (pure : ∀ u ∈ offered, u.value.NoNegative) (policy : PolicyId) (name : AssetName) :
    (committed.funds + Utxo.held progress.selected).2 (policy, name) ≤
      (committed.funds + Utxo.held offered).2 (policy, name) :=
  (add_le_add_right (Utxo.held_le_of_perm sound.kept pure) committed.funds).2 (policy, name)

/-- One asset covered. -/
theorem Sound.pick (pure : ∀ u ∈ offered, u.value.NoNegative) {g : Gathered}
    (sound : Sound offered required committed progress)
    (split : (g.picks ++ g.others).Perm progress.candidates) :
    Sound offered required committed
      { remaining := g.picks.foldl (fun v u => v.monus u.value) progress.remaining
        candidates := g.others
        selected := progress.selected ++ g.picks } := by
  constructor
  · rw [List.append_assoc]
    exact (split.append_left _).trans sound.kept
  · rw [Utxo.held_append, ← add_assoc]
    refine sound.outstanding.picks fun u mem => pure u ?_
    exact sound.kept.subset
      (List.mem_append_right _ (split.subset (List.mem_append_left _ mem)))

/-- What stays short of an asset is what the picks so far leave of the requirement. -/
theorem Sound.short {policy : PolicyId} {name : AssetName} {g : Gathered}
    (sound : Sound offered required committed progress)
    (missing : 0 < progress.remaining.quantity policy name)
    (picked : g = pickAsset (·.value.quantity policy name) (progress.remaining.quantity policy name)
      progress.candidates) :
    g.short = required.quantity policy name -
      (committed.funds + Utxo.held (progress.selected ++ g.picks)).2 (policy, name) := by
  have short : g.short = progress.remaining.quantity policy name -
      (g.picks.map (·.value.quantity policy name)).sum := by
    rw [picked]
    exact pickAsset_short _ _
  have outstanding := sound.outstanding.quantity policy name
  rw [short, quantity_held, Utxo.held_append]
  simp only [Prod.snd_add, Pi.add_apply] at outstanding ⊢
  omega

theorem coverAssets_ok (pure : ∀ u ∈ offered, u.value.NoNegative)
    (sound : Sound offered required committed progress)
    (h : coverAssets assets progress = .ok result) :
    Sound offered required committed result ∧
      Utxo.held progress.selected ≤ Utxo.held result.selected ∧
      ∀ e ∈ assets, required.quantity e.1 e.2.1 ≤
        (committed.funds + Utxo.held result.selected).2 (e.1, e.2.1) := by
  fun_induction coverAssets assets progress with
  | case1 progress =>
    cases h
    exact ⟨sound, le_rfl, by simp⟩
  | case2 policy name q more progress missing enough ih =>
    obtain ⟨kept, grown, covered⟩ := ih sound h
    refine ⟨kept, grown, fun e mem => ?_⟩
    rcases List.mem_cons.1 mem with rfl | later
    · have before := sound.outstanding.covered enough
      have : (Utxo.held progress.selected).2 (policy, name) ≤
          (Utxo.held result.selected).2 (policy, name) := grown.2 _
      simp only [Prod.snd_add, Pi.add_apply] at before ⊢
      omega
    · exact covered e later
  | case3 => cases h
  | case4 policy name q more progress missing above g short ih =>
    have picked := sound.pick (g := g) pure (pickAsset_perm missing progress.candidates)
    obtain ⟨kept, grown, covered⟩ := ih picked h
    have more : Utxo.held progress.selected ≤ Utxo.held (progress.selected ++ g.picks) := by
      rw [Utxo.held_append]
      refine le_add_of_nonneg_right (Utxo.held_nonneg fun u mem => pure u ?_)
      exact picked.kept.subset (List.mem_append_left _ (List.mem_append_right _ mem))
    refine ⟨kept, more.trans grown, fun e mem => ?_⟩
    rcases List.mem_cons.1 mem with rfl | later
    · have exact_short := sound.short (g := g) (not_le.1 above) rfl
      have : (Utxo.held (progress.selected ++ g.picks)).2 (policy, name) ≤
          (Utxo.held result.selected).2 (policy, name) := grown.2 _
      simp only [Prod.snd_add, Pi.add_apply] at exact_short ⊢
      omega
    · exact covered e later

/-- The first asset that stays short is short of everything offered, not only of the picks. -/
theorem coverAssets_error {e : BuildError} (pure : ∀ u ∈ offered, u.value.NoNegative)
    (sound : Sound offered required committed progress)
    (h : coverAssets assets progress = .error e) :
    ∃ before policy name q after, assets = before ++ (policy, name, q) :: after ∧
      (∀ x ∈ before, required.quantity x.1 x.2.1 ≤
        (committed.funds + Utxo.held offered).2 (x.1, x.2.1)) ∧
      (committed.funds + Utxo.held offered).2 (policy, name) < required.quantity policy name ∧
      e = .missingAsset policy name
        (required.quantity policy name - (committed.funds + Utxo.held offered).2 (policy, name)) := by
  fun_induction coverAssets assets progress with
  | case1 => cases h
  | case2 policy name q more progress missing enough ih =>
    obtain ⟨before, p, n, q', after, rfl, covered, rest⟩ := ih sound h
    refine ⟨(policy, name, q) :: before, p, n, q', after, rfl, fun x mem => ?_, rest⟩
    rcases List.mem_cons.1 mem with rfl | later
    · exact (sound.outstanding.covered enough).trans (sound.picks_le pure policy name)
    · exact covered x later
  | case3 policy name q more progress missing above g short =>
    cases h
    have picked := sound.pick (g := g) pure (pickAsset_perm missing progress.candidates)
    have others : (Utxo.held g.others).2 (policy, name) = 0 := by
      rw [← quantity_held]
      refine List.sum_eq_zero fun q mem => ?_
      obtain ⟨u, inside, rfl⟩ := List.mem_map.1 mem
      have nonneg := pure u (picked.kept.subset (List.mem_append_right _ inside)) policy name
      exact le_antisymm (pickAsset_others short u inside) nonneg
    have exact_short := sound.short (g := g) (not_le.1 above) rfl
    have total := congrFun (congrArg Prod.snd picked.total) (policy, name)
    simp only [Prod.snd_add, Pi.add_apply, others] at total exact_short
    refine ⟨[], policy, name, q, more, rfl, by simp, ?_, ?_⟩
    · simp only [Prod.snd_add, Pi.add_apply]
      omega
    · congr 1
      simp only [Prod.snd_add, Pi.add_apply]
      omega
  | case4 policy name q more progress missing above g short ih =>
    have picked := sound.pick (g := g) pure (pickAsset_perm missing progress.candidates)
    obtain ⟨before, p, n, q', after, rfl, covered, rest⟩ := ih picked h
    refine ⟨(policy, name, q) :: before, p, n, q', after, rfl, fun x mem => ?_, rest⟩
    rcases List.mem_cons.1 mem with rfl | later
    · have exact_short := sound.short (g := g) (not_le.1 above) rfl
      have := picked.picks_le pure policy name
      simp only [Prod.snd_add, Pi.add_apply] at exact_short this ⊢
      omega
    · exact covered x later

/-! ### Lovelace -/

theorem takeCoin_left (needed : Nat) (l : List Utxo) :
    (takeCoin needed l).2 = needed - (Utxo.held (takeCoin needed l).1).1 := by
  induction l generalizing needed with
  | nil => rfl
  | cons u rest ih =>
    rw [takeCoin]
    split
    · rename_i enough
      simp [enough]
    · show (takeCoin (needed - u.coin.toNat) rest).2 =
        needed - (Utxo.held (u :: (takeCoin (needed - u.coin.toNat) rest).1)).1
      rw [ih, Utxo.held_cons, Prod.fst_add, Nat.sub_sub]
      rfl

/-- Lovelace stays needed only once every candidate is taken. -/
theorem takeCoin_exhausts {needed : Nat} {l : List Utxo} (left : (takeCoin needed l).2 ≠ 0) :
    (takeCoin needed l).1 = l := by
  induction l generalizing needed with
  | nil => rfl
  | cons u rest ih =>
    rw [takeCoin] at left ⊢
    split at left
    · exact absurd rfl left
    · rename_i more
      rw [if_neg more]
      exact congrArg (List.cons u) (ih left)

theorem expectTotal_totalCoin? {utxos : List Utxo} (fits : (Utxo.held utxos).1 ≤ Amount.largest) :
    ∃ amount, expectTotal (totalCoin? utxos) = .ok amount ∧
      amount.toNat = (Utxo.held utxos).1 := by
  rw [Utxo.coin_held] at fits ⊢
  have sum : totalCoin? utxos = some (UInt64.ofNat (Amount.total (utxos.map Utxo.coin))) :=
    if_pos fits
  exact ⟨_, by rw [sum]; rfl, Amount.ofNat?_eq_some_iff.1 sum⟩

/-- Once the assets are covered, either the picks cover everything or all that is offered falls
short of the lovelace; the sums of the report then stay below what is required. -/
theorem coverCoin_cases (sound : Sound offered required committed progress)
    (assets : ∀ policy name, required.quantity policy name ≤
      (committed.funds + Utxo.held progress.selected).2 (policy, name))
    (pure : ∀ u ∈ offered, u.value.NoNegative) :
    (∃ picks others, coverCoin required committed progress = .ok picks ∧
      (picks ++ others).Perm offered ∧ required.funds ≤ committed.funds + Utxo.held picks) ∨
    (∃ amount, coverCoin required committed progress =
        .error (.refused (.insufficientFunds required.coin amount)) ∧
      amount.toNat = (committed.funds + Utxo.held offered).1 ∧
      (committed.funds + Utxo.held offered).1 < required.coin.toNat) := by
  have outstanding := sound.outstanding.coin
  have left := takeCoin_left progress.remaining.coin.toNat progress.candidates
  simp only [Prod.fst_add] at outstanding
  by_cases enough : (takeCoin progress.remaining.coin.toNat progress.candidates).2 = 0
  · obtain ⟨others, split⟩ := prefix_takeCoin progress.remaining.coin.toNat progress.candidates
    refine .inl ⟨progress.selected ++ (takeCoin progress.remaining.coin.toNat progress.candidates).1,
      others, by simp [coverCoin, enough], ?_, ?_, fun asset => ?_⟩
    · rw [List.append_assoc, split]
      exact sound.kept
    · rw [Utxo.held_append]
      show required.coin.toNat ≤ committed.funds.1 + ((Utxo.held progress.selected).1 + _)
      omega
    · have taken : 0 ≤ Utxo.held (takeCoin progress.remaining.coin.toNat progress.candidates).1 := by
        refine Utxo.held_nonneg fun u mem => pure u ?_
        exact sound.kept.subset (List.mem_append_right _ (subset_takeCoin _ _ mem))
      refine (assets asset.1 asset.2).trans ?_
      rw [Utxo.held_append, ← add_assoc]
      exact le_add_of_nonneg_right (taken.2 asset)
  · have all := takeCoin_exhausts enough
    rw [all] at left
    have total := congrArg Prod.fst sound.total
    simp only [Prod.fst_add] at total
    have small := Amount.toNat_le_largest required.coin
    have committedCoin : committed.funds.1 = committed.coin.toNat := rfl
    obtain ⟨picked, pickedOk, pickedSum⟩ :=
      @expectTotal_totalCoin? progress.selected (by omega)
    obtain ⟨unpicked, unpickedOk, unpickedSum⟩ :=
      @expectTotal_totalCoin? progress.candidates (by omega)
    refine .inr ⟨Amount.clamp (committed.coin.toNat + picked.toNat + unpicked.toNat), ?_, ?_, ?_⟩
    · simp [coverCoin, enough, available, pickedOk, unpickedOk, bind, Except.bind, Except.pure,
        Pure.pure]
    · rw [Amount.toNat_clamp, Prod.fst_add]
      omega
    · rw [Prod.fst_add]
      omega

/-! ### The whole selection -/

/-- `total` holds less of the asset than is required. -/
def Uncovered (required : Value) (total : Funds) (asset : Asset) : Prop :=
  total.2 asset < required.quantity asset.1 asset.2

/-- The first of these assets in map order. -/
def FirstUncovered (required : Value) (total : Funds) (asset : Asset) : Prop :=
  Uncovered required total asset ∧
    ∀ other, Uncovered required total other → other = asset ∨ MultiAsset.Before asset other

theorem FirstUncovered.unique {total : Funds} {a b : Asset} (first : FirstUncovered required total a)
    (second : FirstUncovered required total b) : a = b := by
  rcases first.2 b second.1 with same | before
  · exact same.symm
  · rcases second.2 a first.1 with same | after
    · exact same
    · exact absurd after before.asymm

/-- Where no uncovered asset is missing from a list in map order, the first of the list is first. -/
theorem firstUncovered_of_split {total : Funds} {assets before after : List (PolicyId × AssetName × Int)}
    {policy : PolicyId} {name : AssetName} {q : Int}
    (ordered : (assets.map fun e => (e.1, e.2.1)).Pairwise MultiAsset.Before)
    (looked : ∀ asset, Uncovered required total asset → ∃ r, (asset.1, asset.2, r) ∈ assets)
    (split : assets = before ++ (policy, name, q) :: after)
    (covered : ∀ e ∈ before, required.quantity e.1 e.2.1 ≤ total.2 (e.1, e.2.1))
    (short : total.2 (policy, name) < required.quantity policy name) :
    FirstUncovered required total (policy, name) := by
  refine ⟨short, fun other uncovered => ?_⟩
  obtain ⟨r, mem⟩ := looked other uncovered
  rw [split] at mem ordered
  rcases List.mem_append.1 mem with earlier | later
  · exact absurd uncovered (not_lt.2 (covered _ earlier))
  · rcases List.mem_cons.1 later with same | later
    · cases same
      exact .inl rfl
    · rw [List.map_append, List.map_cons, List.pairwise_append, List.pairwise_cons] at ordered
      exact .inr (ordered.2.1.1 _ (List.mem_map.2 ⟨_, later, rfl⟩))

theorem not_uncovered_of_le {total : Funds} (enough : required.funds ≤ total) (asset : Asset) :
    ¬ Uncovered required total asset :=
  not_lt.2 (enough.2 asset)

/-- The picks of a run, or why nothing offered helps. -/
theorem selectFrom_cases (needs : required.NoNegative) (start : committed.NoNegative)
    (pure : ∀ u ∈ offered, u.value.NoNegative) :
    let total := committed.funds + Utxo.held offered
    (∃ picks others, selectFrom offered required committed = .ok picks ∧
      (picks ++ others).Perm offered ∧ required.funds ≤ committed.funds + Utxo.held picks) ∨
    (∃ policy name, FirstUncovered required total (policy, name) ∧
      selectFrom offered required committed = .error (.refused (.missingAsset policy name
        (required.quantity policy name - total.2 (policy, name))))) ∨
    (∃ amount, (∀ asset, ¬ Uncovered required total asset) ∧ total.1 < required.coin.toNat ∧
      selectFrom offered required committed =
        .error (.refused (.insufficientFunds required.coin amount)) ∧ amount.toNat = total.1) := by
  intro total
  have sound : Sound offered required committed ⟨required.monus committed, offered, []⟩ := by
    refine ⟨List.Perm.refl _, ?_⟩
    rw [Utxo.held_nil, add_zero]
    exact outstanding_committed needs start
  -- An asset that `committed` covers is not among those looked at.
  have looked (asset : Asset) (short : committed.quantity asset.1 asset.2 <
      required.quantity asset.1 asset.2) :
      ∃ q, (asset.1, asset.2, q) ∈ (required.monus committed).positive := by
    refine ⟨_, Value.mem_positive.2 ⟨?_, rfl⟩⟩
    have := (outstanding_committed needs start).quantity asset.1 asset.2
    have committedAsset : committed.funds.2 (asset.1, asset.2) =
      committed.quantity asset.1 asset.2 := rfl
    omega
  have whole : committed.funds ≤ total :=
    le_add_of_nonneg_right (Utxo.held_nonneg pure)
  cases run : coverAssets (required.monus committed).positive
      ⟨required.monus committed, offered, []⟩ with
  | error e =>
    have result : selectFrom offered required committed = .error (.refused e) := by
      simp only [selectFrom, run]
    obtain ⟨before, policy, name, q, after, listed, covered, short, rfl⟩ :=
      coverAssets_error pure sound run
    refine .inr (.inl ⟨policy, name, ?_, result⟩)
    refine firstUncovered_of_split (required.monus committed).bundle.positive_increasing ?_ listed
      covered short
    exact fun other uncovered => looked other (lt_of_le_of_lt (whole.2 other) uncovered)
  | ok progress =>
    have result : selectFrom offered required committed = coverCoin required committed progress := by
      simp only [selectFrom, run]
    obtain ⟨kept, _, covered⟩ := coverAssets_ok pure sound run
    have assets : ∀ policy name, required.quantity policy name ≤
        (committed.funds + Utxo.held progress.selected).2 (policy, name) := by
      intro policy name
      by_cases short : committed.quantity policy name < required.quantity policy name
      · obtain ⟨q, mem⟩ := looked (policy, name) short
        exact covered _ mem
      · have picks : 0 ≤ Utxo.held progress.selected :=
          Utxo.held_nonneg fun u mem => pure u (kept.kept.subset (List.mem_append_left _ mem))
        exact (not_lt.1 short).trans (le_add_of_nonneg_right (picks.2 (policy, name)))
    rw [result]
    rcases coverCoin_cases kept assets pure with done | ⟨amount, failed, exact_amount, short⟩
    · exact .inl done
    · refine .inr (.inr ⟨amount, fun asset => not_lt.2 ?_, short, failed, exact_amount⟩)
      exact (assets asset.1 asset.2).trans (kept.picks_le pure asset.1 asset.2)

/-- All that could be spent: what is committed, and the distinct unused outputs of the pool. -/
def attainable (pool : List Utxo) (used : SortedSet TxIn) (committed : Value) : Funds :=
  committed.funds + Utxo.held (Utxo.distinct (unused pool used))

/-- The picks cover the requirement wherever it can be covered. Otherwise the report names the first
asset in map order that cannot be, or the lovelace that can be had. No sum overflows. -/
theorem select_complete {pool : List Utxo} {used : SortedSet TxIn}
    (pure : ∀ u ∈ pool, u.value.NoNegative) (repeats : Utxo.Consistent pool)
    (needs : required.NoNegative) (start : committed.NoNegative) :
    let total := attainable pool used committed
    let answer := select pool used required committed
    ((∃ picks, answer = .ok picks) ↔ required.funds ≤ total) ∧
    (∀ picks, answer = .ok picks →
      picks ⊆ pool ∧ (picks.map Utxo.ref).Nodup ∧ (∀ u ∈ picks, used.contains u.ref = false) ∧
        required.funds ≤ committed.funds + Utxo.held picks) ∧
    ((∃ policy name missing, answer = .error (.refused (.missingAsset policy name missing))) ↔
      ∃ asset, Uncovered required total asset) ∧
    (∀ policy name missing, answer = .error (.refused (.missingAsset policy name missing)) ↔
      FirstUncovered required total (policy, name) ∧
        missing = required.quantity policy name - total.2 (policy, name)) ∧
    (¬ required.funds ≤ total → (∀ asset, ¬ Uncovered required total asset) →
      ∃ amount, answer = .error (.refused (.insufficientFunds required.coin amount)) ∧
        amount.toNat = total.1) ∧
    answer ≠ .error .overflow := by
  intro total answer
  have inPool {u : Utxo} (mem : u ∈ candidates pool used) :
      u ∈ pool ∧ used.contains u.ref = false := mem_unused.1 (subset_ranked _ mem)
  have unusedRepeats : Utxo.Consistent (unused pool used) :=
    repeats.subset fun u mem => (mem_unused.1 mem).1
  have sum : total = committed.funds + Utxo.held (candidates pool used) := by
    rw [candidates, held_ranked unusedRepeats]
    rfl
  have pureCandidates : ∀ u ∈ candidates pool used, u.value.NoNegative :=
    fun u mem => pure u (inPool mem).1
  have cases := selectFrom_cases needs start pureCandidates
  rw [← sum] at cases
  rcases cases with ⟨picks, others, ok, split, enough⟩ |
    ⟨policy, name, first, missing⟩ | ⟨amount, covered, short, lacking, exact_amount⟩
  · replace ok : answer = .ok picks := ok
    have picked : ∀ u ∈ picks, u ∈ candidates pool used :=
      fun u mem => split.subset (List.mem_append_left _ mem)
    have reached : required.funds ≤ total := by
      rw [sum]
      exact enough.trans (add_le_add_right (Utxo.held_le_of_perm split pureCandidates) _)
    have nothing := not_uncovered_of_le reached
    refine ⟨⟨fun _ => reached, fun _ => ⟨picks, ok⟩⟩, ?_, ?_, ?_, fun short => absurd reached short, ?_⟩
    · intro others same
      rw [ok] at same
      cases same
      exact ⟨fun u mem => (inPool (picked u mem)).1, nodup_refs_of_selectFrom unusedRepeats ok,
        fun u mem => (inPool (picked u mem)).2, enough⟩
    · rw [ok]
      simpa using nothing
    · intro policy name missing
      rw [ok]
      simp [FirstUncovered, nothing]
    · simp [ok]
  · replace missing : answer = _ := missing
    rw [missing]
    refine ⟨?_, by simp, ?_, ?_, fun _ covered => absurd first.1 (covered _), by simp⟩
    · simp only [reduceCtorEq, exists_false, false_iff]
      exact fun enough => not_uncovered_of_le enough _ first.1
    · exact ⟨fun _ => ⟨_, first.1⟩, fun _ => ⟨_, _, _, rfl⟩⟩
    · intro p n m
      constructor
      · intro same
        cases same
        exact ⟨first, rfl⟩
      · rintro ⟨also, rfl⟩
        cases first.unique also
        rfl
  · replace lacking : answer = _ := lacking
    rw [lacking]
    have notEnough : ¬ required.funds ≤ total := fun enough => absurd enough.1 (not_le.2 short)
    refine ⟨by simpa using notEnough, by simp, by simpa using covered, ?_, ?_, by simp⟩
    · intro p n m
      simp [FirstUncovered, covered]
    · exact fun _ _ => ⟨amount, rfl, exact_amount⟩

theorem select_complete_repeated :
    let token : Utxo := ⟨⟨.zero, 0⟩, { address := .enterprise .testnet (.key .zero)
                                       value := (Value.ofCoin 2000000).addAsset .zero ⟨[], by simp⟩ 7 }⟩
    let ada : Utxo := ⟨⟨.zero, 1⟩, { address := .enterprise .testnet (.key .zero)
                                     value := .ofCoin 3000000 }⟩
    ∃ picks, select [token, ada, token] ∅ token.value (.ofCoin 1000000) = .ok picks := by
  intro token ada
  have pure : ∀ u ∈ [token, ada, token], u.value.NoNegative := by decide +kernel
  refine (select_complete pure (by decide +kernel) (pure token (by simp))
    (Value.noNegative_ofCoin _)).1.2 ?_
  have kept : Utxo.held (Utxo.distinct (unused [token, ada, token] ∅)) =
    token.value.funds + ada.value.funds := rfl
  rw [attainable, kept]
  refine le_add_of_nonneg_of_le (Value.funds_nonneg (Value.noNegative_ofCoin _)) ?_
  exact le_add_of_nonneg_right (Value.funds_nonneg (Value.noNegative_ofCoin _))

end ConwayTx.Selection
