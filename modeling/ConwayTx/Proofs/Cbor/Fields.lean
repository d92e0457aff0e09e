import ConwayTx.Proofs.Cbor.Parts
import ConwayTx.Proofs.Cbor.Skipping

/-!
# Parts of an item by place and by key

Items of an array and keys of a map are known by where they stand, fields of a record by their number:
what was written under it is found, and nothing is where a field is absent (`field?_fields`,
`field?_fields_none`). From bytes a field is read by stepping over all keys and values before it, which
comes to the same (`fieldOfMap?_encode`).
-/

namespace ConwayTx.Cbor

/-! ### Places in an item -/

def isSmall (key : UInt8) : Cbor → Bool
  | unsigned n => n = key.toUInt64
  | _ => false

/-- What a map has under a small key. -/
def field? (key : UInt8) : Cbor → Option Cbor
  | map entries => (entries.find? fun e => isSmall key e.1).map Prod.snd
  | _ => none

def item? (i : Nat) : Cbor → Option Cbor
  | array items => items[i]?
  | _ => none

/-- The key of an entry, in the order they are written in. -/
def key? (i : Nat) : Cbor → Option Cbor
  | map entries => entries[i]?.map Prod.fst
  | _ => none

theorem isSmall_iff {key : UInt8} {c : Cbor} : isSmall key c = true ↔ c = small key := by
  cases c with
  | unsigned n => simp [isSmall, small]
  | _ => simp [isSmall, small]

theorem isSmall_small_iff {key k : UInt8} : isSmall key (small k) = true ↔ k = key := by
  rw [isSmall_iff]
  exact ⟨small_inj, congrArg small⟩

theorem field?_fields {entries : List (UInt8 × Option Cbor)} {key : UInt8} {item : Cbor}
    (distinct : (entries.map Prod.fst).Nodup) (mem : (key, some item) ∈ entries) :
    (fields entries).field? key = some item := by
  show ((present entries).find? fun e => isSmall key e.1).map Prod.snd = some item
  have listed : (small key, item) ∈ present entries := List.mem_filterMap.2 ⟨_, mem, rfl⟩
  cases found : (present entries).find? fun e => isSmall key e.1 with
  | none =>
    have absent := List.find?_eq_none.1 found _ listed
    exact absurd (isSmall_small_iff.2 rfl) absent
  | some e =>
    have fits := List.find?_some found
    obtain ⟨⟨k, value⟩, inside, given⟩ := List.mem_filterMap.1 (List.mem_of_find?_eq_some found)
    obtain ⟨item', rfl, rfl⟩ := Option.map_eq_some_iff.1 given
    obtain rfl := isSmall_small_iff.1 fits
    have same := List.inj_on_of_nodup_map distinct inside mem rfl
    exact (Prod.mk.inj same).2

theorem field?_fields_none {entries : List (UInt8 × Option Cbor)} {key : UInt8}
    (distinct : (entries.map Prod.fst).Nodup) (mem : (key, none) ∈ entries) :
    (fields entries).field? key = none := by
  show ((present entries).find? fun e => isSmall key e.1).map Prod.snd = none
  rw [Option.map_eq_none_iff, List.find?_eq_none]
  rintro e listed fits
  obtain ⟨⟨k, value⟩, inside, given⟩ := List.mem_filterMap.1 listed
  obtain ⟨item, rfl, rfl⟩ := Option.map_eq_some_iff.1 given
  obtain rfl := isSmall_small_iff.1 fits
  cases List.inj_on_of_nodup_map distinct inside mem rfl

theorem field?_of_mem {entries : List (UInt8 × Option Cbor)} {key : UInt8} {value : Option Cbor}
    (distinct : (entries.map Prod.fst).Nodup) (mem : (key, value) ∈ entries) :
    (fields entries).field? key = value := by
  cases value with
  | none => exact field?_fields_none distinct mem
  | some item => exact field?_fields distinct mem

/-! ### Fields of encoded maps -/

/-- The bytes of the value behind a key of these bytes, among so many entries. -/
def valueAt? (key : Bytes) : Nat → Bytes → Option Bytes
  | 0, _ => none
  | count + 1, s =>
    (skip? s).bind fun value =>
      (skip? value).bind fun rest =>
        if s.take (s.length - value.length) = key then
          some (value.take (value.length - rest.length))
        else valueAt? key count rest

/-- The bytes of what stands under a small key in a map that states its length. -/
def fieldOfMap? (key : UInt8) (s : Bytes) : Option Bytes :=
  match header? s with
  | some (⟨5, some count⟩, entries) => valueAt? (small key).encode count entries
  | _ => none

theorem valueAt?_append {entries : List (Bytes × Bytes)}
    (each : ∀ e ∈ entries, WellFormed e.1 ∧ WellFormed e.2) (key rest : Bytes) :
    valueAt? key entries.length ((entries.flatMap fun e => e.1 ++ e.2) ++ rest) =
      (entries.find? fun e => e.1 = key).map Prod.snd := by
  induction entries with
  | nil => rfl
  | cons entry others ih =>
    obtain ⟨k, v⟩ := entry
    obtain ⟨wholeKey, wholeValue⟩ := each (k, v) List.mem_cons_self
    have behind := ih fun e mem => each e (List.mem_cons_of_mem _ mem)
    rw [List.flatMap_cons, List.append_assoc, List.append_assoc, List.length_cons, valueAt?,
      skip?_append wholeKey, Option.bind_some, skip?_append wholeValue, Option.bind_some, behind]
    by_cases here : k = key
    · simp [here]
    · simp [here]

theorem isSmall_iff_encode {key : UInt8} {c : Cbor} :
    isSmall key c = true ↔ c.encode = (small key).encode := by
  rw [isSmall_iff]
  refine ⟨congrArg encode, fun same => ?_⟩
  exact (encode_inj (length_unsigned_lt _) same.symm).symm

/-- A field is read from an encoded map as it is written by itself. -/
theorem fieldOfMap?_encode {entries : List (Cbor × Cbor)}
    (short : (map entries).length < UInt64.size) (key : UInt8) :
    fieldOfMap? key (map entries).encode = ((map entries).field? key).map encode := by
  have header := header?_encode short []
  rw [List.append_nil, List.append_nil, major, number?, content, encodePairs_eq_flatMap] at header
  have each : ∀ e ∈ entries.map encodePair, WellFormed e.1 ∧ WellFormed e.2 := by
    refine List.forall_mem_map.2 (wellFormed_encodePairs entries ?_)
    exact (content_le (map entries)).trans_lt short
  have read := valueAt?_append each (small key).encode []
  have found : (fun e : Bytes × Bytes => decide (e.1 = (small key).encode)) ∘ encodePair =
      fun e => isSmall key e.1 := by
    funext e
    exact Bool.eq_iff_iff.2 (decide_eq_true_iff.trans isSmall_iff_encode.symm)
  rw [List.append_nil, List.length_map, List.find?_map, found] at read
  simp only [fieldOfMap?, header, read, field?, Option.map_map]
  rfl

end ConwayTx.Cbor
