import ConwayTx.Proofs.Outcome
import ConwayTx.Proofs.Selection.Candidates

/-!
# Selection and the order of a pool

Selection sees of an output what it is equal to, and of a pool what is in it. Outputs that are equal
become one when their asset maps are made explicit, and no step notices that (`selectFrom_plain`);
ranking undoes any order (`ranked_perm`). So pools of the same outputs lead to the same picks
(`agree_selectFrom`).
-/

namespace ConwayTx

open Outcome

/-! ### Equal outputs -/

namespace Value

/-- With an asset map, be it empty. -/
def plain (v : Value) : Value := ⟨v.coin, some v.bundle⟩

theorem plain_eq_iff {a b : Value} : a.plain = b.plain ↔ (a == b) = true := by
  simp [plain, BEq.beq]

theorem prune_plain (v : Value) : v.plain.prune = v.prune := by
  obtain ⟨coin, assets⟩ := v
  cases assets with
  | none => rfl
  | some m => rfl

theorem add_plain (a b : Value) : a.add b.plain = a.add b := by
  obtain ⟨coin, assets⟩ := b
  cases assets with
  | some m => rfl
  | none =>
    dsimp only [add, plain]
    cases Amount.ofNat? (a.coin.toNat + coin.toNat) with
    | none => rfl
    | some sum => exact congrArg Except.ok (prune_plain ⟨sum, a.assets⟩)

end Value

namespace Utxo

/-- Equal in all parts, where no asset map counts as an empty one. -/
structure Same (u v : Utxo) : Prop where
  ref : u.ref = v.ref
  address : u.address = v.address
  value : (u.value == v.value) = true
  datum : u.output.datum = v.output.datum
  script : u.output.script = v.output.script

/-- With an asset map, be it empty. -/
def plain (u : Utxo) : Utxo := { u with output := { u.output with value := u.value.plain } }

theorem plain_eq_iff {u v : Utxo} : u.plain = v.plain ↔ u.Same v := by
  constructor
  · intro same
    obtain ⟨ref, output⟩ := Utxo.mk.inj same
    obtain ⟨address, value, datum, script⟩ := TxOutput.mk.inj output
    exact ⟨ref, address, Value.plain_eq_iff.1 value, datum, script⟩
  · intro same
    obtain ⟨ref, address, value, datum, script⟩ := u
    obtain ⟨ref', address', value', datum', script'⟩ := v
    obtain ⟨refs, addresses, values, data, scripts⟩ := same
    dsimp only [Utxo.address, Utxo.value] at refs addresses values data scripts
    subst refs addresses data scripts
    exact congrArg (fun value => Utxo.mk ref ⟨address, value, datum, script⟩)
      (Value.plain_eq_iff.2 values)

/-! ### The same outputs -/

/-- In the same order. -/
def SameList (l₁ l₂ : List Utxo) : Prop := l₁.map plain = l₂.map plain

theorem sameList_iff {l₁ l₂ : List Utxo} : SameList l₁ l₂ ↔ List.Forall₂ Same l₁ l₂ := by
  rw [SameList, ← List.forall₂_eq_eq_eq, List.forall₂_map_left_iff, List.forall₂_map_right_iff]
  simp only [plain_eq_iff]

theorem filter_map_plain {keep : Utxo → Bool} (blind : ∀ u, keep u.plain = keep u)
    (l : List Utxo) : (l.map plain).filter keep = (l.filter keep).map plain := by
  rw [List.filter_map]
  exact congrArg (List.map plain) (List.filter_congr fun u _ => blind u)

namespace SameList

variable {l₁ l₂ m₁ m₂ : List Utxo}

theorem refs (same : SameList l₁ l₂) : l₁.map ref = l₂.map ref := by
  have := congrArg (List.map ref) same
  rwa [List.map_map, List.map_map] at this

theorem isEmpty (same : SameList l₁ l₂) : l₁.isEmpty = l₂.isEmpty := by
  have := congrArg List.isEmpty same
  rwa [List.isEmpty_map, List.isEmpty_map] at this

theorem append (first : SameList l₁ l₂) (second : SameList m₁ m₂) :
    SameList (l₁ ++ m₁) (l₂ ++ m₂) := by
  rw [SameList, List.map_append, List.map_append, first, second]

theorem reverse (same : SameList l₁ l₂) : SameList l₁.reverse l₂.reverse := by
  rw [SameList, List.map_reverse, List.map_reverse, same]

theorem filter {keep : Utxo → Bool} (same : SameList l₁ l₂)
    (blind : ∀ u, keep u.plain = keep u) : SameList (l₁.filter keep) (l₂.filter keep) := by
  rw [SameList, ← filter_map_plain blind, ← filter_map_plain blind, same]

end SameList

/-- In any order, each once. -/
structure SamePool (p q : List Utxo) : Prop where
  distinct : (p.map ref).Nodup
  perm : (p.map plain).Perm (q.map plain)

theorem nodup_map_plain {l : List Utxo} (distinct : (l.map ref).Nodup) : (l.map plain).Nodup := by
  refine List.Nodup.of_map ref ?_
  rwa [List.map_map]

theorem SamePool.filter {p q : List Utxo} {keep : Utxo → Bool} (pools : SamePool p q)
    (blind : ∀ u, keep u.plain = keep u) : SamePool (p.filter keep) (q.filter keep) where
  distinct := pools.distinct.sublist (List.filter_sublist.map ref)
  perm := by
    rw [← filter_map_plain blind, ← filter_map_plain blind]
    exact pools.perm.filter keep

end Utxo

namespace Selection

open Utxo

/-! ### Ranking -/

theorem dropRepeats_plain (l : List Utxo) :
    dropRepeats (l.map plain) = (dropRepeats l).map plain := by
  fun_induction dropRepeats l with
  | case1 => rw [List.map_nil, dropRepeats]
  | case2 u rest ih =>
    rw [List.map_cons, List.map_cons, dropRepeats, ← ih, List.dropWhile_map]
    rfl

theorem ranked_plain (pool : List Utxo) : ranked (pool.map plain) = (ranked pool).map plain := by
  rw [ranked, ranked, ← dropRepeats_plain]
  have sorted : (pool.mergeSort fun a b => (rank a b).isLE).map plain =
      (pool.map plain).mergeSort fun a b => (rank a b).isLE := List.map_mergeSort fun _ _ _ _ => rfl
  rw [sorted]

/-- Nothing is left of an order but the rank. -/
theorem ranked_perm {p q : List Utxo} (perm : p.Perm q) (distinct : (p.map ref).Nodup) :
    ranked p = ranked q := by
  refine congrArg dropRepeats (List.Perm.eq_of_pairwise ?_ (pairwise_rank p) (pairwise_rank q)
    ((List.mergeSort_perm _ _).trans (perm.trans (List.mergeSort_perm _ _).symm)))
  intro u v mem mem' below above
  -- Equal ranks have equal references, and the pool has a reference once.
  refine List.inj_on_of_nodup_map distinct (List.mem_mergeSort.1 mem)
    (perm.symm.subset (List.mem_mergeSort.1 mem')) ?_
  exact ref_eq_of_rank (Std.OrientedCmp.isLE_antisymm below above)

theorem ranked_samePool {p q : List Utxo} (pools : SamePool p q) :
    SameList (ranked p) (ranked q) := by
  have distinct : ((p.map plain).map ref).Nodup := by
    rw [List.map_map]
    exact pools.distinct
  rw [SameList, ← ranked_plain, ← ranked_plain, ranked_perm pools.perm distinct]

/-! ### Picks -/

theorem extract?_plain {p : Utxo → Bool} (blind : ∀ u, p u.plain = p u) (l : List Utxo) :
    extract? p (l.map plain) =
      (extract? p l).map fun (u, others) => (u.plain, others.map plain) := by
  induction l with
  | nil => rfl
  | cons u rest ih =>
    rw [List.map_cons, extract?, extract?, blind, ih]
    split
    · rfl
    · cases extract? p rest <;> rfl

abbrev Gathered.plain (g : Gathered) : Gathered :=
  ⟨g.picks.map Utxo.plain, g.others.map Utxo.plain, g.short⟩

theorem gather_plain {held : Utxo → Int} (blind : ∀ u, held u.plain = held u) (short : Int)
    (l : List Utxo) : gather held short (l.map plain) = (gather held short l).plain := by
  induction l generalizing short with
  | nil => rfl
  | cons u rest ih =>
    rw [List.map_cons, gather, gather, blind, ih, ih]
    split
    · rfl
    · split <;> rfl

theorem pickAsset_plain {held : Utxo → Int} (blind : ∀ u, held u.plain = held u) (missing : Int)
    (l : List Utxo) : pickAsset held missing (l.map plain) = (pickAsset held missing l).plain := by
  unfold pickAsset
  rw [extract?_plain fun u => by rw [blind], gather_plain blind]
  cases extract? (fun u => decide (missing ≤ held u)) l with
  | some found =>
    obtain ⟨u, others⟩ := found
    simp only [Option.map_some, Gathered.plain, blind, List.map_cons, List.map_nil]
  | none => simp only [Option.map_none, Gathered.plain, List.map_reverse]

abbrev Progress.plain (progress : Progress) : Progress :=
  ⟨progress.remaining, progress.candidates.map Utxo.plain, progress.selected.map Utxo.plain⟩

theorem coverAssets_plain (assets : List (PolicyId × AssetName × Int)) (remaining : Value)
    (candidates selected : List Utxo) :
    coverAssets assets ⟨remaining, candidates.map Utxo.plain, selected.map Utxo.plain⟩ =
      (coverAssets assets ⟨remaining, candidates, selected⟩).map Progress.plain := by
  induction assets generalizing remaining candidates selected with
  | nil => rfl
  | cons asset more ih =>
    obtain ⟨policy, name, _⟩ := asset
    rw [coverAssets, coverAssets]
    dsimp only
    rw [pickAsset_plain fun _ => rfl]
    by_cases covered : remaining.quantity policy name ≤ 0
    · rw [if_pos covered, if_pos covered]
      exact ih _ _ _
    · rw [if_neg covered, if_neg covered]
      dsimp only [Gathered.plain]
      split
      · rfl
      · rw [List.foldl_map, ← List.map_append]
        exact ih _ _ _

theorem takeCoin_plain (needed : Nat) (l : List Utxo) :
    takeCoin needed (l.map plain) = ((takeCoin needed l).1.map plain, (takeCoin needed l).2) := by
  induction l generalizing needed with
  | nil => rfl
  | cons u rest ih =>
    rw [List.map_cons, takeCoin, takeCoin, ih]
    split <;> rfl

theorem totalCoin?_plain (l : List Utxo) : totalCoin? (l.map plain) = totalCoin? l := by
  rw [totalCoin?, totalCoin?, List.map_map]
  rfl

theorem coverCoin_plain (required committed : Value) (progress : Progress) :
    coverCoin required committed progress.plain =
      (coverCoin required committed progress).map (List.map plain) := by
  unfold coverCoin available
  dsimp only [Progress.plain]
  rw [takeCoin_plain, totalCoin?_plain, totalCoin?_plain]
  dsimp only
  split
  · exact congrArg Except.ok List.map_append.symm
  · cases expectTotal (totalCoin? progress.selected) <;>
      cases expectTotal (totalCoin? progress.candidates) <;> rfl

theorem selectFrom_plain (l : List Utxo) (required committed : Value) :
    selectFrom (l.map plain) required committed =
      (selectFrom l required committed).map (List.map plain) := by
  have start := coverAssets_plain (required.monus committed).positive (required.monus committed) l []
  rw [List.map_nil] at start
  unfold selectFrom
  dsimp only
  rw [start]
  cases coverAssets (required.monus committed).positive ⟨required.monus committed, l, []⟩ with
  | error e => rfl
  | ok progress => exact coverCoin_plain required committed progress

/-- Pools of the same outputs lead to the same picks, or to the same refusal. -/
theorem agree_selectFrom {p q : List Utxo} (pools : SamePool p q) (required committed : Value) :
    Agree SameList (selectFrom (ranked p) required committed)
      (selectFrom (ranked q) required committed) := by
  refine .of_map ?_
  rw [← selectFrom_plain, ← selectFrom_plain, show (ranked p).map plain = _ from ranked_samePool pools]

end Selection

end ConwayTx
