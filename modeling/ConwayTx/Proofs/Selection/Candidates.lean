import ConwayTx.Proofs.Value.Funds
import ConwayTx.Selection

/-!
# Candidates

Sorting brings outputs with one reference together, so that one of them is left. What the
candidates hold is therefore what the distinct unused outputs of the pool hold
(`held_ranked`).
-/

namespace ConwayTx

namespace Utxo

/-- The first output of each reference. -/
def distinct : List Utxo → List Utxo
  | [] => []
  | u :: rest => u :: (distinct rest).filter fun v => v.ref ≠ u.ref

/-- Outputs with one reference have one value. -/
def Consistent (utxos : List Utxo) : Prop :=
  ∀ u ∈ utxos, ∀ v ∈ utxos, u.ref = v.ref → (u.value == v.value) = true

instance (utxos : List Utxo) : Decidable (Consistent utxos) :=
  inferInstanceAs (Decidable (∀ u ∈ utxos, ∀ v ∈ utxos, u.ref = v.ref → (u.value == v.value) = true))

theorem distinct_subset (utxos : List Utxo) : distinct utxos ⊆ utxos := by
  induction utxos with
  | nil => exact List.Subset.refl _
  | cons u rest ih =>
    exact List.cons_subset_cons u fun v kept => ih (List.mem_filter.1 kept).1

theorem nodup_refs_distinct (utxos : List Utxo) : ((distinct utxos).map ref).Nodup := by
  induction utxos with
  | nil => exact List.nodup_nil
  | cons u rest ih =>
    rw [distinct, List.map_cons, List.nodup_cons]
    refine ⟨fun mem => ?_, ih.sublist (List.filter_sublist.map ref)⟩
    obtain ⟨v, kept, same⟩ := List.mem_map.1 mem
    simpa [same] using (List.mem_filter.1 kept).2

theorem exists_mem_distinct {utxos : List Utxo} {u : Utxo} (mem : u ∈ utxos) :
    ∃ v ∈ distinct utxos, v.ref = u.ref := by
  induction utxos with
  | nil => cases mem
  | cons w rest ih =>
    by_cases same : w.ref = u.ref
    · exact ⟨w, List.mem_cons_self .., same⟩
    · have inside : u ∈ rest := by
        rcases List.mem_cons.1 mem with rfl | inside
        · exact absurd rfl same
        · exact inside
      obtain ⟨v, kept, found⟩ := ih inside
      refine ⟨v, List.mem_cons_of_mem _ (List.mem_filter.2 ⟨kept, ?_⟩), found⟩
      simpa [found] using Ne.symm same

theorem eq_of_value_beq {u v : Utxo} (same : (u.value == v.value) = true) :
    u.coin = v.coin ∧ u.value.bundle = v.value.bundle := by
  obtain ⟨coins, bundles⟩ := Bool.and_eq_true_iff.1 same
  exact ⟨of_decide_eq_true coins, of_decide_eq_true bundles⟩

theorem isAdaOnly_of_value_beq {u v : Utxo} (same : (u.value == v.value) = true) :
    u.isAdaOnly = v.isAdaOnly := by
  simp only [isAdaOnly, Value.hasAssets, Value.positive, (eq_of_value_beq same).2]

theorem funds_of_value_beq {u v : Utxo} (same : (u.value == v.value) = true) :
    u.value.funds = v.value.funds := by
  obtain ⟨coins, bundles⟩ := eq_of_value_beq same
  refine Prod.ext (congrArg UInt64.toNat coins) (funext fun asset => ?_)
  simp only [Value.funds, Value.quantity, bundles]

theorem Consistent.subset {l₁ l₂ : List Utxo} (sound : Consistent l₂) (sub : l₁ ⊆ l₂) :
    Consistent l₁ := fun u hu v hv => sound u (sub hu) v (sub hv)

theorem consistent_of_nodup {utxos : List Utxo} (distinct : (utxos.map ref).Nodup) :
    Consistent utxos := by
  intro u hu v hv same
  obtain rfl := List.inj_on_of_nodup_map distinct hu hv same
  simp [BEq.beq]

/-- Lists of distinct references that agree on references and values hold the same. -/
theorem held_eq_of_refs {l₁ l₂ : List Utxo} (distinct₁ : (l₁.map ref).Nodup)
    (distinct₂ : (l₂.map ref).Nodup) (into : ∀ u ∈ l₁, ∃ v ∈ l₂, v.ref = u.ref)
    (onto : ∀ v ∈ l₂, ∃ u ∈ l₁, u.ref = v.ref)
    (agree : ∀ u ∈ l₁, ∀ v ∈ l₂, u.ref = v.ref → u.value.funds = v.value.funds) :
    held l₁ = held l₂ := by
  let entry (u : Utxo) : TxIn × Funds := (u.ref, u.value.funds)
  have nodup {l : List Utxo} (distinct : (l.map ref).Nodup) : (l.map entry).Nodup := by
    refine List.Nodup.of_map Prod.fst ?_
    rwa [List.map_map]
  have perm : (l₁.map entry).Perm (l₂.map entry) := by
    refine (List.perm_ext_iff_of_nodup (nodup distinct₁) (nodup distinct₂)).2 fun e => ?_
    simp only [List.mem_map]
    constructor
    · rintro ⟨u, hu, rfl⟩
      obtain ⟨v, hv, same⟩ := into u hu
      exact ⟨v, hv, Prod.ext same (agree u hu v hv same.symm).symm⟩
    · rintro ⟨v, hv, rfl⟩
      obtain ⟨u, hu, same⟩ := onto v hv
      exact ⟨u, hu, Prod.ext same (agree u hu v hv same)⟩
  have sums := (perm.map Prod.snd).sum_eq
  simpa [entry, List.map_map, Function.comp_def, held] using sums

end Utxo

namespace Selection

/-! ### The order of candidates -/

theorem rank_eq_lex : rank = compareLex (compareOn fun u => !u.isAdaOnly)
    (compareLex (fun a b => compareOn Utxo.coin b a) (compareOn Utxo.ref)) := rfl

instance : Std.TransCmp rank := by
  have : Std.TransCmp fun a b : Utxo => compareOn Utxo.coin b a := Std.TransCmp.opposite
  rw [rank_eq_lex]
  infer_instance

theorem ref_eq_of_rank {u v : Utxo} (same : rank u v = .eq) : u.ref = v.ref := by
  simp only [rank, Ordering.then_eq_eq] at same
  exact Std.LawfulEqCmp.eq_of_compare same.2.2

theorem rank_eq_of_value {u v : Utxo} (refs : u.ref = v.ref)
    (values : (u.value == v.value) = true) : rank u v = .eq := by
  simp [rank, compareOn, refs, (Utxo.eq_of_value_beq values).1, Utxo.isAdaOnly_of_value_beq values]

/-- No output with assets comes before one without. -/
theorem isAdaOnly_of_rank {u v : Utxo} (before : (rank u v).isLE) (ada : v.isAdaOnly = true) :
    u.isAdaOnly = true := by
  cases assets : u.isAdaOnly with
  | true => rfl
  | false =>
    have after : compare true false = .gt := rfl
    simp [rank, compareOn, assets, ada, after] at before

theorem coin_le_of_rank {u v : Utxo} (before : (rank u v).isLE)
    (kinds : u.isAdaOnly = v.isAdaOnly) : v.coin ≤ u.coin := by
  simp only [rank, compareOn, kinds, Std.ReflCmp.compare_self, Ordering.eq_then] at before
  by_contra more
  have less : compare v.coin u.coin = .gt := Std.compare_eq_gt.2 (UInt64.not_le.1 more)
  rw [less] at before
  cases before

theorem pairwise_rank (pool : List Utxo) :
    (pool.mergeSort fun a b => (rank a b).isLE).Pairwise fun a b => (rank a b).isLE :=
  List.pairwise_mergeSort (fun _ _ _ => Std.TransCmp.isLE_trans) (SortedMap.isLE_or_isLE rank) pool

/-! ### One candidate a reference -/

theorem dropRepeats_sublist (l : List Utxo) : (dropRepeats l).Sublist l := by
  fun_induction dropRepeats l with
  | case1 => exact List.Sublist.refl _
  | case2 u rest ih => exact (ih.trans (List.dropWhile_sublist _)).cons_cons u

theorem pairwise_ranked (pool : List Utxo) : (ranked pool).Pairwise fun a b => (rank a b).isLE :=
  (pairwise_rank pool).sublist (dropRepeats_sublist _)

theorem mem_of_mem_dropRepeats {l : List Utxo} {u : Utxo} (mem : u ∈ dropRepeats l) : u ∈ l :=
  subset_dropRepeats l mem

/-- Equal references stand together, so the first of them is the only one that stays. -/
theorem nodup_refs_dropRepeats {l : List Utxo} (sorted : l.Pairwise fun a b => (rank a b).isLE)
    (sound : Utxo.Consistent l) : ((dropRepeats l).map Utxo.ref).Nodup := by
  fun_induction dropRepeats l with
  | case1 => exact List.nodup_nil
  | case2 u rest ih =>
    obtain ⟨first, sortedRest⟩ := List.pairwise_cons.1 sorted
    have tail : rest.dropWhile (fun v => v.ref = u.ref) ⊆ rest := (List.dropWhile_sublist _).subset
    rw [List.map_cons, List.nodup_cons]
    refine ⟨fun mem => ?_, ih (sortedRest.sublist (List.dropWhile_sublist _))
      (sound.subset (List.Subset.trans tail (List.subset_cons_self _ _)))⟩
    obtain ⟨v, kept, same⟩ := List.mem_map.1 mem
    have inside := mem_of_mem_dropRepeats kept
    have level : rank v u = .eq := rank_eq_of_value same
      (sound v (.tail _ (tail inside)) u (.head _) same)
    cases split : rest.dropWhile (fun v => v.ref = u.ref) with
    | nil => rw [split] at inside; cases inside
    | cons w others =>
      have apart : w.ref ≠ u.ref := by
        have := List.head_dropWhile_not (fun v : Utxo => decide (v.ref = u.ref))
          (l := rest) (by rw [split]; exact List.cons_ne_nil _ _)
        simpa [split] using this
      have within : w ∈ rest := tail (by rw [split]; exact .head _)
      -- `u ≤ w ≤ v`, and `v` ranks as `u` does, so `w` ranks as `u` too.
      have below : (rank w v).isLE := by
        rw [split] at inside
        rcases List.mem_cons.1 inside with rfl | later
        · exact absurd same apart
        · have ordered := sortedRest.sublist (List.dropWhile_sublist fun v => v.ref = u.ref)
          rw [split] at ordered
          exact (List.pairwise_cons.1 ordered).1 v later
      have back : (rank w u).isLE := Std.TransCmp.isLE_trans below (by rw [level]; rfl)
      exact apart (ref_eq_of_rank (Std.OrientedCmp.isLE_antisymm back (first w within)))

theorem exists_mem_dropRepeats {l : List Utxo} {u : Utxo} (mem : u ∈ l) :
    ∃ v ∈ dropRepeats l, v.ref = u.ref := by
  fun_induction dropRepeats l with
  | case1 => cases mem
  | case2 w rest ih =>
    by_cases same : w.ref = u.ref
    · exact ⟨w, List.mem_cons_self .., same⟩
    · have inside : u ∈ rest := by
        rcases List.mem_cons.1 mem with rfl | inside
        · exact absurd rfl same
        · exact inside
      have kept : u ∈ rest.dropWhile (fun v => v.ref = w.ref) := by
        rw [← List.takeWhile_append_dropWhile (p := fun v : Utxo => decide (v.ref = w.ref)) (l := rest),
          List.mem_append] at inside
        refine inside.resolve_left fun taken => same ?_
        have := List.mem_takeWhile_imp taken
        simpa using Eq.symm (of_decide_eq_true this)
      obtain ⟨v, found, refs⟩ := ih kept
      exact ⟨v, List.mem_cons_of_mem _ found, refs⟩

theorem nodup_refs_ranked {pool : List Utxo} (sound : Utxo.Consistent pool) :
    ((ranked pool).map Utxo.ref).Nodup :=
  nodup_refs_dropRepeats (pairwise_rank pool) (sound.subset fun _ => List.mem_mergeSort.1)

theorem exists_mem_ranked {pool : List Utxo} {u : Utxo} (mem : u ∈ pool) :
    ∃ v ∈ ranked pool, v.ref = u.ref :=
  exists_mem_dropRepeats (List.mem_mergeSort.2 mem)

theorem mem_unused {pool : List Utxo} {used : SortedSet TxIn} {u : Utxo} :
    u ∈ unused pool used ↔ u ∈ pool ∧ used.contains u.ref = false := by
  simp [unused]

theorem held_ranked {pool : List Utxo} (sound : Utxo.Consistent pool) :
    Utxo.held (ranked pool) = Utxo.held (Utxo.distinct pool) := by
  refine Utxo.held_eq_of_refs (nodup_refs_ranked sound) (Utxo.nodup_refs_distinct pool)
    (fun u mem => Utxo.exists_mem_distinct (subset_ranked pool mem))
    (fun v mem => exists_mem_ranked (Utxo.distinct_subset pool mem)) fun u hu v hv same => ?_
  exact Utxo.funds_of_value_beq
    (sound u (subset_ranked pool hu) v (Utxo.distinct_subset pool hv) same)

end Selection

end ConwayTx
