import ConwayTx.Proofs.Outcome
import ConwayTx.Proofs.SortedMap
import ConwayTx.Redeemer.Layout

/-!
# Redeemer layout

As long as 32 bits number the items of each container, no two targets get one pointer
(`pointer?_inj`), so `assign` keeps every redeemer (`assign_ok`).
-/

namespace ConwayTx.RedeemerLayout

open Outcome

variable {l : RedeemerLayout}

/-- Each container has as many items as pointers can tell apart, at most. -/
structure Small (l : RedeemerLayout) : Prop where
  inputs : l.inputs.length ≤ UInt32.size
  policies : l.policies.length ≤ UInt32.size
  credentials : l.credentials.length ≤ UInt32.size

theorem idxOf?_lt {α : Type} [BEq α] [LawfulBEq α] {items : List α} {a : α} {i : Nat}
    (found : items.idxOf? a = some i) : i < items.length :=
  (List.idxOf?_eq_some_iff.1 found).1

theorem idxOf?_inj {α : Type} [BEq α] [LawfulBEq α] {items : List α} {a b : α} {i : Nat}
    (first : items.idxOf? a = some i) (second : items.idxOf? b = some i) : a = b := by
  obtain ⟨_, hereA, _⟩ := List.idxOf?_eq_some_iff.1 first
  obtain ⟨_, hereB, _⟩ := List.idxOf?_eq_some_iff.1 second
  exact hereA.symm.trans hereB

theorem position?_lt {target : RedeemerTarget} {i : Nat} (small : l.Small)
    (found : l.position? target = some i) : i < UInt32.size := by
  cases target with
  | spend ref => exact (idxOf?_lt found).trans_le small.inputs
  | mint policy => exact (idxOf?_lt found).trans_le small.policies
  | reward credential => exact (idxOf?_lt found).trans_le small.credentials

theorem position?_inj {a b : RedeemerTarget} {i : Nat} (tags : a.tag = b.tag)
    (first : l.position? a = some i) (second : l.position? b = some i) : a = b := by
  cases a <;> cases b <;> cases tags <;> exact congrArg _ (idxOf?_inj first second)

theorem pointer?_inj {a b : RedeemerTarget} {p : RedeemerPointer} (small : l.Small)
    (first : l.pointer? a = some p) (second : l.pointer? b = some p) : a = b := by
  obtain ⟨i, atA, rfl⟩ := Option.map_eq_some_iff.1 first
  obtain ⟨j, atB, same⟩ := Option.map_eq_some_iff.1 second
  have tags : b.tag = a.tag := congrArg RedeemerPointer.tag same
  have indices := congrArg (fun p => p.index.toNat) same
  simp only [UInt32.toNat_ofNat_of_lt' (position?_lt small atA),
    UInt32.toNat_ofNat_of_lt' (position?_lt small atB)] at indices
  rw [indices] at atB
  exact position?_inj tags.symm atA atB

/-- Every redeemer stays, under the pointer of its target. -/
theorem assign_ok {pending : PendingRedeemers} {redeemers : Redeemers} (small : l.Small)
    (h : l.assign pending = .ok redeemers) :
    ∃ placed, l.placed pending = .ok placed ∧ redeemers.entries.Perm placed ∧
      placed.map (fun e => some e.1) = pending.entries.map (fun e => l.pointer? e.1) ∧
      placed.map Prod.snd = pending.entries.map Prod.snd := by
  obtain ⟨placed, places, h⟩ := bind_ok h
  have both : placed.map (fun e => (some e.1, e.2)) =
      pending.entries.map fun e => (l.pointer? e.1, e.2) := by
    refine map_of_mapM_ok _ places fun e r one => ?_
    obtain ⟨target, redeemer⟩ := e
    dsimp only at one
    split at one
    · rename_i pointer found
      cases one
      rw [found]
    · cases one
  have pointers : placed.map (fun e => some e.1) = pending.entries.map fun e => l.pointer? e.1 := by
    simpa only [List.map_map, Function.comp_def] using congrArg (List.map Prod.fst) both
  have values : placed.map Prod.snd = pending.entries.map Prod.snd := by
    simpa only [List.map_map, Function.comp_def] using congrArg (List.map Prod.snd) both
  refine ⟨placed, places, ?_, pointers, values⟩
  have targets : pending.keys.map l.pointer? = pending.entries.map fun e => l.pointer? e.1 := by
    rw [SortedMap.keys, List.map_map]
    rfl
  have distinct : (placed.map fun e => some e.1).Nodup := by
    rw [pointers, ← targets]
    refine List.Nodup.map_on (fun a _ b memB same => ?_) pending.nodup_keys
    have listed : l.pointer? b ∈ placed.map fun e => some e.1 := by
      rw [pointers, ← targets]
      exact List.mem_map_of_mem memB
    obtain ⟨e, _, found⟩ := List.mem_map.1 listed
    exact pointer?_inj small (same.trans found.symm) found.symm
  rw [← pure_ok h]
  refine SortedMap.entries_ofList_perm (List.Nodup.of_map some ?_)
  rwa [List.map_map]

/-- So a redeemer is found where its target is. -/
theorem find?_of_assign {pending : PendingRedeemers} {redeemers : Redeemers} {target : RedeemerTarget}
    {redeemer : Redeemer} (small : l.Small) (h : l.assign pending = .ok redeemers)
    (attached : pending.find? target = some redeemer) :
    ∃ pointer, l.pointer? target = some pointer ∧ redeemers.find? pointer = some redeemer := by
  obtain ⟨placed, places, perm, _⟩ := assign_ok small h
  obtain ⟨entry, listed, one⟩ := of_mem_mapM_ok places (SortedMap.find?_eq_some_iff.1 attached)
  dsimp only at one
  split at one
  · rename_i pointer found
    cases one
    exact ⟨pointer, found, SortedMap.find?_eq_some_iff.2 (perm.mem_iff.2 listed)⟩
  · cases one

end ConwayTx.RedeemerLayout
