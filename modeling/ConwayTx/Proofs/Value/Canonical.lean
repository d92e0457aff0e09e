import ConwayTx.Proofs.Outcome
import ConwayTx.Proofs.Value.Quantity
import ConwayTx.Value.Wire

/-!
# Canonical values

Asset maps without zero quantities and empty policies, and values without empty maps, which
arithmetic leaves (`Value.canonical_prune`). A mint is written without these, so a canonical one is
written as it is (`kept_of_canonical`).
-/

namespace ConwayTx

open Outcome

namespace MultiAsset

def Canonical (m : MultiAsset) : Prop :=
  ∀ e ∈ m.entries, e.2.isEmpty = false ∧ ∀ held ∈ e.2.entries, held.2 ≠ 0

theorem canonical_empty : Canonical ∅ := fun _ mem => absurd mem List.not_mem_nil

theorem canonical_prune (m : MultiAsset) : m.prune.Canonical := by
  intro e mem
  obtain ⟨listed, nonempty⟩ := List.mem_filter.1 mem
  obtain ⟨original, _, rfl⟩ := List.mem_map.1 listed
  refine ⟨by simpa using nonempty, fun held inside => ?_⟩
  simpa using (List.mem_filter.1 inside).2

theorem kept_of_canonical {m : MultiAsset} (canonical : m.Canonical) :
    m.kept (· ≠ 0) = m.entries.map fun e => (e.1, e.2.entries) := by
  have whole : (m.entries.map fun e => (e.1, e.2.entries.filter fun held => decide (held.2 ≠ 0))) =
      m.entries.map fun e => (e.1, e.2.entries) := by
    refine List.map_congr_left fun e mem => Prod.ext rfl ?_
    exact List.filter_eq_self.2 fun held inside => by simpa using (canonical e mem).2 held inside
  show (m.entries.map fun e => (e.1, e.2.entries.filter fun held => decide (held.2 ≠ 0))).filter _ = _
  rw [whole]
  refine List.filter_eq_self.2 fun e mem => ?_
  obtain ⟨original, listed, rfl⟩ := List.mem_map.1 mem
  have nonempty := (canonical original listed).1
  simpa [SortedMap.isEmpty] using nonempty

/-- A canonical mint is written with all its policies. -/
theorem mintToCbor_ok {m : MultiAsset} {c : Cbor} (canonical : m.Canonical)
    (h : m.mintToCbor = .ok c) :
    ∃ entries, c = .map entries ∧ entries.map Prod.fst = m.keys.map fun p => .bytes p.bytes := by
  rw [mintToCbor, kept_of_canonical canonical] at h
  obtain ⟨entries, written, h⟩ := bind_ok h
  refine ⟨entries, (pure_ok h).symm, ?_⟩
  rw [map_of_mapM_ok (fun e => Cbor.bytes e.1.bytes) written, List.map_map, SortedMap.keys,
    List.map_map]
  · rfl
  · intro e item one
    obtain ⟨names, _, one⟩ := bind_ok one
    rw [← pure_ok one]

end MultiAsset

namespace Value

/-- As arithmetic leaves it. -/
def Canonical (v : Value) : Prop := ∀ m ∈ v.assets, m.Canonical ∧ m.isEmpty = false

theorem canonical_prune (v : Value) : v.prune.Canonical := by
  intro m held
  unfold prune at held
  split at held
  · rename_i none
    rw [none] at held
    cases held
  · split at held
    · cases held
    · rename_i nonempty
      cases held
      exact ⟨MultiAsset.canonical_prune _, Bool.eq_false_iff.2 nonempty⟩

theorem Canonical.bundle {v : Value} (canonical : v.Canonical) : v.bundle.Canonical := by
  unfold Value.bundle
  cases held : v.assets with
  | none => exact MultiAsset.canonical_empty
  | some m => exact (canonical m held).1

theorem canonical_addAsset (v : Value) (policy : PolicyId) (name : AssetName) (q : Int) :
    (v.addAsset policy name q).Canonical :=
  canonical_prune _

theorem canonical_add {a b v : Value} (sum : a.add b = .ok v) : v.Canonical := by
  unfold add at sum
  split at sum
  · cases sum
  · split at sum <;> cases sum <;> exact canonical_prune _

end Value

end ConwayTx
