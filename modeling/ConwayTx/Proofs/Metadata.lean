import ConwayTx.Metadata
import ConwayTx.Proofs.Outcome.Failing
import ConwayTx.Proofs.SortedMap

/-!
# Metadata that can be written

A datum is not written just where an integer in it is of neither integer type
(`Metadatum.refused_toCbor_iff`). Within the limits there is no such integer, so metadata that is
within them can be written (`WithinLimits.exists_toCbor`). It stays within them as data within the
limits is added.
-/

namespace ConwayTx

open Outcome

namespace Metadatum

/-- The integer stands somewhere in the datum, among keys and values alike. -/
inductive Contains (n : Int) : Metadatum → Prop
  | here : Contains n (.int n)
  | item {items : List Metadatum} {datum : Metadatum} (listed : datum ∈ items)
      (inside : Contains n datum) : Contains n (.list items)
  | key {entries : List (Metadatum × Metadatum)} {e : Metadatum × Metadatum} (listed : e ∈ entries)
      (inside : Contains n e.1) : Contains n (.map entries)
  | value {entries : List (Metadatum × Metadatum)} {e : Metadatum × Metadatum}
      (listed : e ∈ entries) (inside : Contains n e.2) : Contains n (.map entries)

/-! ### Refused integers -/

theorem refused_allToCbor_iff {items : List Metadatum} :
    Refused (allToCbor items) ↔ ∃ datum ∈ items, Refused datum.toCbor := by
  induction items with
  | nil => exact iff_of_false (not_refused_ok []) fun ⟨_, mem, _⟩ => by cases mem
  | cons item rest ih =>
    rw [allToCbor, List.exists_mem_cons_iff, ← ih]
    exact refused_bind_iff fun first _ => refused_bind_pure_iff

theorem refused_pairsToCbor_iff {entries : List (Metadatum × Metadatum)} :
    Refused (pairsToCbor entries) ↔ ∃ e ∈ entries, Refused e.1.toCbor ∨ Refused e.2.toCbor := by
  induction entries with
  | nil => exact iff_of_false (not_refused_ok []) fun ⟨_, mem, _⟩ => by cases mem
  | cons e rest ih =>
    rw [pairsToCbor, List.exists_mem_cons_iff, ← ih, or_assoc]
    exact refused_bind_iff fun key _ => refused_bind_iff fun value _ => refused_bind_pure_iff

theorem refused_of_contains {n : Int} {datum : Metadatum} (inside : datum.Contains n)
    (unwritten : Cbor.ofInt? n = none) : Refused datum.toCbor := by
  induction inside with
  | here =>
    rw [toCbor, unwritten]
    exact refused_error _
  | item listed _ ih => exact refused_map_iff.2 (refused_allToCbor_iff.2 ⟨_, listed, ih⟩)
  | key listed _ ih => exact refused_map_iff.2 (refused_pairsToCbor_iff.2 ⟨_, listed, .inl ih⟩)
  | value listed _ ih => exact refused_map_iff.2 (refused_pairsToCbor_iff.2 ⟨_, listed, .inr ih⟩)

mutual

theorem contains_of_refused (datum : Metadatum) (refused : Refused datum.toCbor) :
    ∃ n, datum.Contains n ∧ Cbor.ofInt? n = none := by
  cases datum with
  | int n =>
    rw [toCbor] at refused
    cases written : Cbor.ofInt? n with
    | some item =>
      rw [written] at refused
      exact absurd refused (not_refused_ok _)
    | none => exact ⟨n, .here, written⟩
  | bytes content => exact absurd refused (not_refused_ok _)
  | text content => exact absurd refused (not_refused_ok _)
  | list items =>
    obtain ⟨datum, listed, n, inside, unwritten⟩ :=
      contains_of_refused_all items (refused_map_iff.1 refused)
    exact ⟨n, .item listed inside, unwritten⟩
  | map entries =>
    obtain ⟨e, listed, n, inside, unwritten⟩ :=
      contains_of_refused_pairs entries (refused_map_iff.1 refused)
    rcases inside with inside | inside
    · exact ⟨n, .key listed inside, unwritten⟩
    · exact ⟨n, .value listed inside, unwritten⟩
termination_by structural datum

theorem contains_of_refused_all (items : List Metadatum) (refused : Refused (allToCbor items)) :
    ∃ datum ∈ items, ∃ n, datum.Contains n ∧ Cbor.ofInt? n = none := by
  cases items with
  | nil => exact absurd refused (not_refused_ok _)
  | cons item rest =>
    rw [refused_allToCbor_iff, List.exists_mem_cons_iff, ← refused_allToCbor_iff] at refused
    rcases refused with first | others
    · exact ⟨item, .head _, contains_of_refused item first⟩
    · obtain ⟨datum, listed, found⟩ := contains_of_refused_all rest others
      exact ⟨datum, .tail _ listed, found⟩
termination_by structural items

theorem contains_of_refused_pairs (entries : List (Metadatum × Metadatum))
    (refused : Refused (pairsToCbor entries)) :
    ∃ e ∈ entries, ∃ n, (e.1.Contains n ∨ e.2.Contains n) ∧ Cbor.ofInt? n = none := by
  rcases entries with _ | ⟨⟨key, value⟩, rest⟩
  · exact absurd refused (not_refused_ok _)
  · rw [refused_pairsToCbor_iff, List.exists_mem_cons_iff, ← refused_pairsToCbor_iff] at refused
    rcases refused with (first | second) | others
    · obtain ⟨n, inside, unwritten⟩ := contains_of_refused key first
      exact ⟨(key, value), .head _, n, .inl inside, unwritten⟩
    · obtain ⟨n, inside, unwritten⟩ := contains_of_refused value second
      exact ⟨(key, value), .head _, n, .inr inside, unwritten⟩
    · obtain ⟨e, listed, found⟩ := contains_of_refused_pairs rest others
      exact ⟨e, .tail _ listed, found⟩
termination_by structural entries

end

theorem refused_toCbor_iff {datum : Metadatum} :
    Refused datum.toCbor ↔ ∃ n, datum.Contains n ∧ Cbor.ofInt? n = none :=
  ⟨contains_of_refused datum, fun ⟨_, inside, unwritten⟩ => refused_of_contains inside unwritten⟩

/-! ### Limits -/

theorem allWithinLimits_iff {items : List Metadatum} :
    allWithinLimits items = true ↔ ∀ datum ∈ items, datum.isWithinLimits = true := by
  induction items with
  | nil => exact iff_of_true rfl (List.forall_mem_nil _)
  | cons item rest ih => rw [allWithinLimits, Bool.and_eq_true, ih, List.forall_mem_cons]

theorem pairsWithinLimits_iff {entries : List (Metadatum × Metadatum)} :
    pairsWithinLimits entries = true ↔
      ∀ e ∈ entries, e.1.isWithinLimits = true ∧ e.2.isWithinLimits = true := by
  induction entries with
  | nil => exact iff_of_true rfl (List.forall_mem_nil _)
  | cons e rest ih =>
    rw [pairsWithinLimits, Bool.and_eq_true, Bool.and_eq_true, ih, List.forall_mem_cons]

theorem isSome_of_contains {n : Int} {datum : Metadatum} (inside : datum.Contains n)
    (within : datum.isWithinLimits = true) : (Cbor.ofInt? n).isSome = true := by
  induction inside with
  | here => exact within
  | item listed _ ih => exact ih (allWithinLimits_iff.1 within _ listed)
  | key listed _ ih => exact ih (pairsWithinLimits_iff.1 within _ listed).1
  | value listed _ ih => exact ih (pairsWithinLimits_iff.1 within _ listed).2

theorem not_refused_toCbor {datum : Metadatum} (within : datum.isWithinLimits = true) :
    ¬ Refused datum.toCbor := by
  intro refused
  obtain ⟨n, inside, unwritten⟩ := refused_toCbor_iff.1 refused
  have written := isSome_of_contains inside within
  rw [unwritten] at written
  cases written

end Metadatum

namespace Metadata

def WithinLimits (m : Metadata) : Prop := ∀ entry ∈ m.entries, entry.2.isWithinLimits = true

theorem withinLimits_of_outside? {m : Metadata} (none : m.outside? = none) : m.WithinLimits := by
  intro entry mem
  have each := List.find?_eq_none.1 (Option.map_eq_none_iff.1 none) entry mem
  simpa using each

theorem withinLimits_empty : WithinLimits ∅ := fun _ mem => by cases mem

theorem WithinLimits.insert {m : Metadata} (within : m.WithinLimits) (label : UInt64)
    {datum : Metadatum} (fits : datum.isWithinLimits = true) :
    WithinLimits (SortedMap.insert m label datum) := by
  intro entry mem
  rcases SortedMap.mem_insertIn mem with rfl | old
  · exact fits
  · exact within entry old

theorem WithinLimits.exists_toCbor {m : Metadata} (within : m.WithinLimits) :
    ∃ item, m.toCbor = .ok item := by
  refine not_refused_iff.1 fun refused => ?_
  obtain ⟨entry, mem, unwritten⟩ := refused_mapM_iff.1 (refused_map_iff.1 refused)
  exact Metadatum.not_refused_toCbor (within entry mem) (refused_bind_pure_iff.1 unwritten)

/-- The hash is that of the encoding. -/
theorem hash_ok {m : Metadata} {hash : Digest 32} (h : m.hash = .ok hash) :
    ∃ item, m.toCbor = .ok item ∧ hash = blake2b256 item.encode := by
  obtain ⟨item, written, h⟩ := bind_ok h
  exact ⟨item, written, (pure_ok h).symm⟩

end Metadata

end ConwayTx
