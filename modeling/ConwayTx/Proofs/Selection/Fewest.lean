import ConwayTx.Proofs.Outcome
import ConwayTx.Proofs.Selection.Completeness

/-!
# Few picks for lovelace

Where no asset is outstanding, lovelace alone decides what is picked. It is taken from as few
ADA-only outputs as can be, no other output is touched before all of those are taken, and every
pick is needed (`select_fewest`). The largest outputs come first, so no other choice of so many of
them holds more (`sum_le_sum_take`).
-/

namespace ConwayTx.Selection

/-! ### The largest come first -/

theorem sum_take_le_cons {a : ℕ} {l : List ℕ} (sorted : (a :: l).Pairwise (· ≥ ·)) (k : ℕ) :
    (l.take k).sum ≤ ((a :: l).take k).sum := by
  induction l generalizing a k with
  | nil => simp
  | cons b rest ih =>
    obtain ⟨largest, sortedRest⟩ := List.pairwise_cons.1 sorted
    cases k with
    | zero => simp
    | succ k =>
      have first : b ≤ a := largest b (.head _)
      have later := ih sortedRest k
      rw [List.take_succ_cons, List.take_succ_cons, List.sum_cons, List.sum_cons]
      exact Nat.add_le_add first later

/-- Of a decreasing list, no part of a given length holds more than the first so many. -/
theorem sum_le_sum_take {part l : List ℕ} (sorted : l.Pairwise (· ≥ ·)) (sub : part.Sublist l) :
    part.sum ≤ (l.take part.length).sum := by
  induction sub with
  | slnil => simp
  | cons a _ ih => exact (ih (List.pairwise_cons.1 sorted).2).trans (sum_take_le_cons sorted _)
  | cons_cons a _ ih =>
    rw [List.length_cons, List.take_succ_cons, List.sum_cons, List.sum_cons]
    exact Nat.add_le_add_left (ih (List.pairwise_cons.1 sorted).2) a

theorem coin_held_eq_sum (utxos : List Utxo) :
    (Utxo.held utxos).1 = (utxos.map (·.coin.toNat)).sum := by
  induction utxos with
  | nil => rfl
  | cons u rest ih =>
    rw [Utxo.held_cons, Prod.fst_add, ih, List.map_cons, List.sum_cons]
    rfl

/-! ### Lovelace in turn -/

/-- As long as one more is picked, those before it are not enough. -/
theorem held_take_lt_of_takeCoin {needed k : ℕ} {l : List Utxo}
    (more : k < (takeCoin needed l).1.length) : (Utxo.held (l.take k)).1 < needed := by
  induction l generalizing needed k with
  | nil => cases more
  | cons u rest ih =>
    rw [takeCoin] at more
    split at more
    · cases more
    · rename_i missing
      cases k with
      | zero => exact Nat.pos_of_ne_zero missing
      | succ k =>
        have later := ih (Nat.lt_of_succ_lt_succ more)
        have coin : u.value.funds.1 = u.coin.toNat := rfl
        rw [List.take_succ_cons, Utxo.held_cons, Prod.fst_add]
        omega

variable {required committed : Value}

/-- Every asset that is required is committed already. -/
def AssetsCommitted (required committed : Value) : Prop :=
  ∀ policy name, 0 < required.quantity policy name →
    required.quantity policy name ≤ committed.quantity policy name

theorem selectFrom_eq_coverCoin (assets : AssetsCommitted required committed) (l : List Utxo) :
    selectFrom l required committed =
      coverCoin required committed ⟨required.monus committed, l, []⟩ := by
  have nothing : (required.monus committed).positive = [] := by
    refine List.eq_nil_iff_forall_not_mem.2 fun (policy, name, q) mem => ?_
    obtain ⟨above, same⟩ := Value.mem_positive.1 mem
    have covered := assets policy name
    rw [Value.quantity_monus] at same
    split at same
    · have := covered ‹_›
      omega
    · omega
  unfold selectFrom
  dsimp only
  rw [nothing, coverAssets]

/-- Candidates in turn are taken for lovelace alone. -/
theorem selectFrom_of_assetsCommitted (assets : AssetsCommitted required committed)
    (l : List Utxo) :
    let taken := takeCoin (required.coin.toNat - committed.coin.toNat) l
    (selectFrom l required committed = .ok taken.1 ∧ taken.2 = 0) ∨
    ((∃ e, selectFrom l required committed = .error e) ∧ taken.2 ≠ 0) := by
  intro taken
  rw [selectFrom_eq_coverCoin assets]
  unfold coverCoin
  dsimp only
  rw [Value.coin_monus]
  by_cases enough : taken.2 = 0
  · exact .inl ⟨if_pos enough, enough⟩
  · refine .inr ⟨?_, enough⟩
    rw [if_neg enough]
    cases available committed [] l <;> exact ⟨_, rfl⟩

/-! ### Fewest picks -/

/-- Picks out of `offered` for lovelace alone: enough, no more ADA-only outputs than it takes, and
no others unless those are all taken. -/
structure Fewest (offered : List Utxo) (needed : ℕ) (picks : List Utxo) : Prop where
  inside : picks ⊆ offered
  distinct : (picks.map Utxo.ref).Nodup
  enough : needed ≤ (Utxo.held picks).1
  assetsLast : ∀ u ∈ picks, u.isAdaOnly = false →
    ∀ v ∈ offered, v.isAdaOnly = true → ∃ w ∈ picks, w.ref = v.ref
  fewest : (∀ u ∈ picks, u.isAdaOnly = true) →
    ∀ others ⊆ offered, (others.map Utxo.ref).Nodup → (∀ u ∈ others, u.isAdaOnly = true) →
      others.length < picks.length → (Utxo.held others).1 < needed
  last : ∀ others u, picks = others ++ [u] → (Utxo.held others).1 < needed

section Ranked

variable {offered picks rest : List Utxo}

/-- Whatever is offered has its candidate, of the same kind and with the same lovelace. -/
theorem exists_ranked_like (sound : Utxo.Consistent offered) {v : Utxo} (mem : v ∈ offered) :
    ∃ w ∈ ranked offered, w.ref = v.ref ∧ w.isAdaOnly = v.isAdaOnly ∧ w.coin = v.coin := by
  obtain ⟨w, listed, same⟩ := exists_mem_ranked mem
  have values := sound w (subset_ranked offered listed) v mem same
  exact ⟨w, listed, same, Utxo.isAdaOnly_of_value_beq values, (Utxo.eq_of_value_beq values).1⟩

theorem exists_pick_of_isAdaOnly (sound : Utxo.Consistent offered)
    (split : picks ++ rest = ranked offered) {u v : Utxo} (picked : u ∈ picks)
    (assets : u.isAdaOnly = false) (mem : v ∈ offered) (ada : v.isAdaOnly = true) :
    ∃ w ∈ picks, w.ref = v.ref := by
  obtain ⟨w, listed, same, kind, _⟩ := exists_ranked_like sound mem
  rw [← split] at listed
  rcases List.mem_append.1 listed with early | late
  · exact ⟨w, early, same⟩
  · have ordered := pairwise_ranked offered
    rw [← split, List.pairwise_append] at ordered
    have before := isAdaOnly_of_rank (ordered.2.2 u picked w late) (kind.trans ada)
    rw [assets] at before
    cases before

/-- The lovelace of distinct ADA-only outputs is lovelace of distinct ADA-only candidates. -/
theorem subperm_coins {others : List Utxo} (sound : Utxo.Consistent offered)
    (sub : others ⊆ offered) (distinct : (others.map Utxo.ref).Nodup)
    (ada : ∀ u ∈ others, u.isAdaOnly = true) :
    (others.map (·.coin.toNat)).Subperm
      (((ranked offered).filter Utxo.isAdaOnly).map (·.coin.toNat)) := by
  let entry (u : Utxo) : TxIn × ℕ := (u.ref, u.coin.toNat)
  have nodup : (others.map entry).Nodup := by
    refine List.Nodup.of_map Prod.fst ?_
    rwa [List.map_map]
  have inside : others.map entry ⊆ ((ranked offered).filter Utxo.isAdaOnly).map entry := by
    intro e mem
    obtain ⟨v, picked, rfl⟩ := List.mem_map.1 mem
    obtain ⟨w, listed, same, kind, coin⟩ := exists_ranked_like sound (sub picked)
    refine List.mem_map.2 ⟨w, List.mem_filter.2 ⟨listed, kind.trans (ada v picked)⟩, ?_⟩
    exact Prod.ext same (congrArg UInt64.toNat coin)
  obtain ⟨part, perm, sublist⟩ := nodup.subperm inside
  have coins := perm.map Prod.snd
  have parts := sublist.map Prod.snd
  rw [List.map_map] at coins parts
  exact ⟨part.map Prod.snd, coins, parts⟩

theorem coins_decrease (offered : List Utxo) :
    (((ranked offered).filter Utxo.isAdaOnly).map (·.coin.toNat)).Pairwise (· ≥ ·) := by
  refine List.pairwise_map.2 (List.Pairwise.imp_of_mem ?_
    ((pairwise_ranked offered).sublist List.filter_sublist))
  intro u v left right before
  have kinds : u.isAdaOnly = v.isAdaOnly :=
    (List.mem_filter.1 left).2.trans (List.mem_filter.1 right).2.symm
  exact UInt64.le_iff_toNat_le.1 (coin_le_of_rank before kinds)

/-- Picks that carry no assets hold the most that so many ADA-only outputs can hold. -/
theorem held_le_held_take {others : List Utxo} (sound : Utxo.Consistent offered)
    (split : picks ++ rest = ranked offered) (pure : ∀ u ∈ picks, u.isAdaOnly = true)
    (sub : others ⊆ offered) (distinct : (others.map Utxo.ref).Nodup)
    (ada : ∀ u ∈ others, u.isAdaOnly = true) (fewer : others.length ≤ picks.length) :
    (Utxo.held others).1 ≤ (Utxo.held ((ranked offered).take others.length)).1 := by
  have first : ((ranked offered).filter Utxo.isAdaOnly).take others.length =
      (ranked offered).take others.length := by
    rw [← split, List.filter_append, List.filter_eq_self.2 pure, List.take_append_of_le_length fewer,
      List.take_append_of_le_length fewer]
  obtain ⟨part, perm, sublist⟩ := subperm_coins sound sub distinct ada
  have most := sum_le_sum_take (coins_decrease offered) sublist
  rw [perm.sum_eq, perm.length_eq, List.length_map, ← List.map_take, first] at most
  rw [coin_held_eq_sum, coin_held_eq_sum]
  exact most

theorem fewest_of_takeCoin {needed : ℕ} (sound : Utxo.Consistent offered)
    (enough : (takeCoin needed (ranked offered)).2 = 0) :
    Fewest offered needed (takeCoin needed (ranked offered)).1 := by
  obtain ⟨rest, split⟩ := prefix_takeCoin needed (ranked offered)
  refine ⟨List.Subset.trans (subset_takeCoin _ _) (subset_ranked offered), ?_, ?_, ?_, ?_, ?_⟩
  · exact (nodup_refs_ranked sound).sublist ((prefix_takeCoin _ _).sublist.map Utxo.ref)
  · have left := takeCoin_left needed (ranked offered)
    omega
  · intro u picked assets v mem ada
    exact exists_pick_of_isAdaOnly sound split picked assets mem ada
  · intro pure others sub distinct ada fewer
    exact (held_le_held_take sound split pure sub distinct ada fewer.le).trans_lt
      (held_take_lt_of_takeCoin fewer)
  · intro others u same
    have early : others = (ranked offered).take others.length := by
      rw [← split, same, List.append_assoc, List.take_left]
    rw [early]
    refine held_take_lt_of_takeCoin ?_
    rw [same, List.length_append]
    exact Nat.lt_succ_self _

end Ranked

/-- Lovelace alone is taken from the fewest outputs of the pool that are not in use. -/
theorem select_fewest {pool picks : List Utxo} {used : SortedSet TxIn}
    (repeats : Utxo.Consistent pool) (assets : AssetsCommitted required committed)
    (h : select pool used required committed = .ok picks) :
    Fewest (unused pool used) (required.coin.toNat - committed.coin.toNat) picks := by
  have sound : Utxo.Consistent (unused pool used) :=
    repeats.subset fun u mem => (mem_unused.1 mem).1
  rcases selectFrom_of_assetsCommitted assets (candidates pool used) with
    ⟨taken, enough⟩ | ⟨⟨e, failed⟩, _⟩
  · obtain rfl := Except.ok.inj (h.symm.trans taken)
    exact fewest_of_takeCoin sound enough
  · cases h.symm.trans failed

theorem select_fewest_repeated :
    let entry (index : UInt32) (value : Value) : Utxo :=
      ⟨⟨.zero, index⟩, { address := .enterprise .testnet (.key .zero), value }⟩
    let token (coin : Amount) : Value := (Value.ofCoin coin).addAsset .zero ⟨[], by simp⟩ 7
    let large := entry 0 (.ofCoin 3000000)
    let small := entry 1 (.ofCoin 2000000)
    let pool := [large, large, small, entry 2 (.ofCoin 0), entry 3 (token 9000000)]
    ∃ picks, select pool ∅ (token 4000000) (token 500000) = .ok picks ∧
      picks.map Utxo.ref = [large.ref, small.ref] ∧
      AssetsCommitted (token 4000000) (token 500000) ∧ Fewest (unused pool ∅) 3500000 picks := by
  intro entry token large small pool
  have assets : AssetsCommitted (token 4000000) (token 500000) := fun policy name _ => by
    rw [Value.quantity_addAsset, Value.quantity_addAsset]
    exact le_rfl
  have listed : candidates pool ∅ =
      [large, small, entry 2 (.ofCoin 0), entry 3 (token 9000000)] := by
    have sorted : (pool.mergeSort fun a b => (rank a b).isLE) = pool :=
      List.mergeSort_of_pairwise (by decide +kernel)
    rw [candidates, show unused pool ∅ = pool from rfl, ranked, sorted]
    simp [pool, large, small, entry, dropRepeats]
  have run : (select pool ∅ (token 4000000) (token 500000)).toOption.map (List.map Utxo.ref) =
      some [large.ref, small.ref] := by
    rw [select, listed]
    decide +kernel
  obtain ⟨picks, chosen, refs⟩ := Option.map_eq_some_iff.1 run
  replace chosen : select pool ∅ (token 4000000) (token 500000) = .ok picks :=
    Outcome.ok_of_toOption chosen
  have needed : (token 4000000).coin.toNat - (token 500000).coin.toNat = 3500000 := by
    decide +kernel
  have fewest := select_fewest (by decide +kernel) assets chosen
  rw [needed] at fewest
  exact ⟨picks, chosen, refs, assets, fewest⟩

end ConwayTx.Selection
