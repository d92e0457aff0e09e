import ConwayTx.Proofs.Cbor.Numbers
import ConwayTx.Proofs.Metadata
import ConwayTx.Proofs.Value.Range

/-!
# Metadata read back

Metadata is not written just where an integer in it, at whatever depth, is of neither integer type
(`Metadata.refused_toCbor_iff`). What is written is read back as it was (`Metadata.metadata?_toCbor`).
-/

namespace ConwayTx

open Outcome

namespace Metadatum

mutual

theorem ranged_toCbor (datum : Metadatum) : Fails EncodeError.IsRange datum.toCbor := by
  cases datum with
  | int n =>
    rw [toCbor]
    split
    · exact .ok _
    · exact .error ⟨_, rfl⟩
  | bytes content => exact .ok _
  | text content => exact .ok _
  | list items => exact (ranged_allToCbor items).bind fun _ _ => .ok _
  | map entries => exact (ranged_pairsToCbor entries).bind fun _ _ => .ok _
termination_by structural datum

theorem ranged_allToCbor (items : List Metadatum) : Fails EncodeError.IsRange (allToCbor items) := by
  cases items with
  | nil => exact .ok _
  | cons item rest =>
    refine (ranged_toCbor item).bind fun _ _ => ?_
    exact (ranged_allToCbor rest).bind fun _ _ => .ok _
termination_by structural items

theorem ranged_pairsToCbor (entries : List (Metadatum × Metadatum)) :
    Fails EncodeError.IsRange (pairsToCbor entries) := by
  rcases entries with _ | ⟨⟨key, value⟩, rest⟩
  · exact .ok _
  · refine (ranged_toCbor key).bind fun _ _ => (ranged_toCbor value).bind fun _ _ => ?_
    exact (ranged_pairsToCbor rest).bind fun _ _ => .ok _
termination_by structural entries

end

end Metadatum

/-! ### Reading -/

namespace Cbor

mutual

def metadatum? : Cbor → Option Metadatum
  | unsigned n => some (.int n.toNat)
  | negative n => some (.int (-1 - n.toNat))
  | bytes content => some (.bytes content)
  | text content => some (.text content)
  | array items => (allMetadata? items).map .list
  | map entries => (pairsMetadata? entries).map .map
  | pieces _ | openArray _ | tagged .. | bool _ | null => none

def allMetadata? : List Cbor → Option (List Metadatum)
  | [] => some []
  | item :: rest => do return (← metadatum? item) :: (← allMetadata? rest)

def pairsMetadata? : List (Cbor × Cbor) → Option (List (Metadatum × Metadatum))
  | [] => some []
  | (key, value) :: rest => do
    return (← metadatum? key, ← metadatum? value) :: (← pairsMetadata? rest)

end

def labelled? : Cbor × Cbor → Option (UInt64 × Metadatum)
  | (unsigned label, datum) => datum.metadatum?.map (label, ·)
  | _ => none

/-- Labels in the order they are written in, with their data. -/
def metadata? : Cbor → Option (List (UInt64 × Metadatum))
  | map entries => entries.mapM labelled?
  | _ => none

theorem metadatum?_of_integer? {item : Cbor} {n : ℤ} (number : item.integer? = some n) :
    item.metadatum? = some (.int n) := by
  cases item with
  | unsigned word =>
    obtain rfl := Option.some.inj number
    rfl
  | negative word =>
    obtain rfl := Option.some.inj number
    rfl
  | _ => cases number

end Cbor

namespace Metadatum

mutual

theorem metadatum?_toCbor (datum : Metadatum) {item : Cbor} (written : datum.toCbor = .ok item) :
    item.metadatum? = some datum := by
  cases datum with
  | int n =>
    rw [toCbor] at written
    cases fits : Cbor.ofInt? n with
    | none =>
      rw [fits] at written
      cases written
    | some number =>
      rw [fits] at written
      cases written
      exact Cbor.metadatum?_of_integer? (Cbor.integer?_ofInt? fits)
  | bytes content =>
    cases written
    rfl
  | text content =>
    cases written
    rfl
  | list items =>
    obtain ⟨all, each, written⟩ := bind_ok written
    obtain rfl := pure_ok written
    rw [Cbor.metadatum?, allMetadata?_allToCbor items each]
    rfl
  | map entries =>
    obtain ⟨pairs, each, written⟩ := bind_ok written
    obtain rfl := pure_ok written
    rw [Cbor.metadatum?, pairsMetadata?_pairsToCbor entries each]
    rfl
termination_by structural datum

theorem allMetadata?_allToCbor (items : List Metadatum) {all : List Cbor}
    (written : allToCbor items = .ok all) : Cbor.allMetadata? all = some items := by
  cases items with
  | nil =>
    cases written
    rfl
  | cons item rest =>
    obtain ⟨first, one, written⟩ := bind_ok written
    obtain ⟨others, more, written⟩ := bind_ok written
    obtain rfl := pure_ok written
    rw [Cbor.allMetadata?, metadatum?_toCbor item one, allMetadata?_allToCbor rest more]
    rfl
termination_by structural items

theorem pairsMetadata?_pairsToCbor (entries : List (Metadatum × Metadatum))
    {pairs : List (Cbor × Cbor)} (written : pairsToCbor entries = .ok pairs) :
    Cbor.pairsMetadata? pairs = some entries := by
  rcases entries with _ | ⟨⟨key, value⟩, rest⟩
  · cases written
    rfl
  · obtain ⟨first, one, written⟩ := bind_ok written
    obtain ⟨second, two, written⟩ := bind_ok written
    obtain ⟨others, more, written⟩ := bind_ok written
    obtain rfl := pure_ok written
    rw [Cbor.pairsMetadata?, metadatum?_toCbor key one, metadatum?_toCbor value two,
      pairsMetadata?_pairsToCbor rest more]
    rfl
termination_by structural entries

end

end Metadatum

namespace Metadata

theorem refused_toCbor_iff {m : Metadata} :
    Refused m.toCbor ↔ ∃ e ∈ m.entries, ∃ n, e.2.Contains n ∧ (n < -2 ^ 64 ∨ 2 ^ 64 - 1 < n) := by
  rw [toCbor, refused_map_iff, refused_mapM_iff]
  refine exists_congr fun e => and_congr_right fun _ => ?_
  refine refused_bind_pure_iff.trans (Metadatum.refused_toCbor_iff.trans ?_)
  simp only [Cbor.ofInt?_eq_none_iff]

theorem ranged_toCbor (m : Metadata) : Fails EncodeError.IsRange m.toCbor := by
  refine .bind (.mapM fun e _ => ?_) fun _ _ => .ok _
  exact e.2.ranged_toCbor.bind fun _ _ => .ok _

theorem metadata?_toCbor {m : Metadata} {item : Cbor} (written : m.toCbor = .ok item) :
    item.metadata? = some m.entries := by
  obtain ⟨entries, each, same⟩ := bind_ok written
  obtain rfl := pure_ok same
  rw [Cbor.metadata?]
  replace each := mapM_ok each
  clear written same
  generalize m.entries = l at each
  induction each with
  | nil => rfl
  | @cons e pair _ _ one _ ih =>
    obtain ⟨datum, wrote, one⟩ := bind_ok one
    obtain rfl := pure_ok one
    have read : Cbor.labelled? (.unsigned e.1, datum) = some e := by
      rw [Cbor.labelled?, e.2.metadatum?_toCbor wrote]
      rfl
    rw [List.mapM_cons, read, ih]
    rfl

end Metadata

end ConwayTx
