import ConwayTx.Proofs.Value.Equality

/-!
# Traces of nothing

A value put together by hand may hold zero quantities and policies without assets. No quantity shows
these traces, but equality does: values are equal where their lovelace, their quantities and their
traces are (`beq_iff_traces`). Once both are pruned, the traces are gone.
-/

namespace ConwayTx

namespace MultiAsset

/-- The same assets are listed at zero, and the same policies without any asset. -/
structure SameTraces (m m' : MultiAsset) : Prop where
  zeros : ∀ p n, (p, n, 0) ∈ m.listed ↔ (p, n, 0) ∈ m'.listed
  policies : ∀ p, m.find? p = some ∅ ↔ m'.find? p = some ∅

variable {m m' : MultiAsset}

theorem SameTraces.symm (traces : m.SameTraces m') : m'.SameTraces m :=
  ⟨fun p n => (traces.zeros p n).symm, fun p => (traces.policies p).symm⟩

/-- An entry other than zero is seen in the quantities, an entry at zero is a trace. -/
theorem SameTraces.listed (traces : m.SameTraces m')
    (same : ∀ p n, m.quantity p n = m'.quantity p n) {p : PolicyId} {n : AssetName} {q : ℤ}
    (mem : (p, n, q) ∈ m.listed) : (p, n, q) ∈ m'.listed := by
  by_cases zero : q = 0
  · subst zero
    exact (traces.zeros p n).1 mem
  · have held : m'.quantity p n = q := (same p n).symm.trans (quantity_of_mem_listed mem)
    rw [quantity] at held
    refine mem_listed.2 ?_
    cases found : (m'.find? p).bind (·.find? n) with
    | none =>
      rw [found] at held
      exact absurd held.symm zero
    | some q' =>
      rw [found] at held
      exact congrArg some held

/-- A policy of one map is one of the other: it lists something, or its having no asset is a trace. -/
theorem SameTraces.exists_policy (traces : m.SameTraces m')
    (same : ∀ p n, m.quantity p n = m'.quantity p n) {p : PolicyId} {names : AssetBundle}
    (found : m.find? p = some names) : ∃ names', m'.find? p = some names' := by
  rcases names.eq_empty_or_exists with rfl | ⟨n, q, held⟩
  · exact ⟨∅, (traces.policies p).1 found⟩
  · have mem : (p, n, q) ∈ m.listed := mem_listed.2 (by rw [found]; exact held)
    obtain ⟨names', found', _⟩ := Option.bind_eq_some_iff.1
      (mem_listed.1 (traces.listed same mem))
    exact ⟨names', found'⟩

theorem eq_iff_traces :
    m = m' ↔ (∀ p n, m.quantity p n = m'.quantity p n) ∧ m.SameTraces m' := by
  constructor
  · rintro rfl
    exact ⟨fun _ _ => rfl, fun _ _ => .rfl, fun _ => .rfl⟩
  rintro ⟨same, traces⟩
  have back : ∀ p n, m'.quantity p n = m.quantity p n := fun p n => (same p n).symm
  refine SortedMap.eq_of_find? fun p => ?_
  cases found : m.find? p with
  | none =>
    cases found' : m'.find? p with
    | none => rfl
    | some names' =>
      obtain ⟨names, there⟩ := traces.symm.exists_policy back found'
      rw [found] at there
      cases there
  | some names =>
    obtain ⟨names', found'⟩ := traces.exists_policy same found
    rw [found']
    refine congrArg some (SortedMap.eq_of_find? fun n => Option.ext fun q => ?_)
    have entry : (p, n, q) ∈ m.listed ↔ (p, n, q) ∈ m'.listed :=
      ⟨traces.listed same, traces.symm.listed back⟩
    rwa [mem_listed, mem_listed, found, found'] at entry

end MultiAsset

namespace Value

theorem beq_iff_traces (v w : Value) :
    ((v == w) = true ↔ v.coin = w.coin ∧ (∀ p n, v.quantity p n = w.quantity p n) ∧
      v.bundle.SameTraces w.bundle) ∧
    ((v.prune == w.prune) = true ↔
      v.coin = w.coin ∧ ∀ p n, v.quantity p n = w.quantity p n) := by
  constructor
  · rw [beq_iff, MultiAsset.eq_iff_traces]
    rfl
  · rw [(canonical_prune v).beq_iff (canonical_prune w)]
    simp only [coin_prune, quantity_prune]

/-- Quantities alone do not decide: an entry at zero, or a policy without assets, makes a value
differ from its lovelace. -/
theorem beq_iff_quantity_not :
    let zero : Value := ⟨5, some (.ofList [(.zero, .ofList [(⟨[], by decide⟩, 0)])])⟩
    let policy : Value := ⟨5, some (.ofList [(.zero, ∅)])⟩
    let differs (v : Value) : Prop :=
      (v == ofCoin v.coin) = false ∧ ∀ p n, v.quantity p n = (ofCoin v.coin).quantity p n
    differs zero ∧ differs policy := by
  intro zero policy differs
  have unseen (v : Value) (pruned : v.prune = ofCoin v.coin) (p : PolicyId) (n : AssetName) :
      v.quantity p n = (ofCoin v.coin).quantity p n := by
    rw [← quantity_prune v, pruned]
  exact ⟨⟨by decide +kernel, unseen zero (by decide +kernel)⟩,
    ⟨by decide +kernel, unseen policy (by decide +kernel)⟩⟩

end Value

end ConwayTx
