import ConwayTx.Cbor
import ConwayTx.Digest
import Mathlib

/-!
# Lengths of encodings

Headers grow with their number, and what holds an item is at least as long as the item. So an
encoding counts what it lists, and replacing a field by a longer one makes it no shorter.
-/

namespace ConwayTx.Cbor

/-- Bytes of the encoding. -/
def length (c : Cbor) : Nat := c.encode.length

/-! ### Headers -/

/-- Bytes of a header with the number. -/
def headLength (n : Nat) : Nat :=
  if n < 24 then 1
  else if n < UInt8.size then 2
  else if n < UInt16.size then 3
  else if n < UInt32.size then 5
  else 9

theorem length_head (major n : Nat) : (head major n).length = headLength n := by
  unfold head headLength
  split_ifs <;> simp

theorem headLength_pos (n : Nat) : 0 < headLength n := by
  unfold headLength
  split_ifs <;> decide

theorem headLength_mono {m n : Nat} (le : m ≤ n) : headLength m ≤ headLength n := by
  have sizes : UInt8.size = 256 ∧ UInt16.size = 65536 ∧ UInt32.size = 4294967296 := by decide
  unfold headLength
  split_ifs <;> omega

theorem headLength_le (n : Nat) : headLength n ≤ 9 := by
  unfold headLength
  split_ifs <;> decide

/-- Numbers from which on a header is longer. -/
def thresholds : List Nat := [24, UInt8.size, UInt16.size, UInt32.size]

theorem exists_threshold {m n : Nat} (longer : headLength m < headLength n) :
    ∃ t ∈ thresholds, m < t ∧ t ≤ n := by
  by_contra none
  simp only [thresholds, List.mem_cons, List.not_mem_nil, or_false, exists_eq_or_imp,
    exists_eq_left, not_or, not_and, not_le] at none
  unfold headLength at longer
  split_ifs at longer <;> omega

/-- Numbers whose headers grow twice are more than ten times apart. -/
theorem ten_mul_lt_of_headLength {m n k : Nat} (first : headLength m < headLength n)
    (second : headLength n < headLength k) : 10 * m < k := by
  obtain ⟨t, mem, below, above⟩ := exists_threshold first
  obtain ⟨u, mem', below', above'⟩ := exists_threshold second
  have apart : ∀ t ∈ thresholds, ∀ u ∈ thresholds, t < u → 10 * t ≤ u := by decide
  have := apart t mem u mem' (by omega)
  omega

theorem length_pos (c : Cbor) : 0 < c.length := by
  unfold length
  cases c with
  | unsigned n | negative n =>
    rw [encode, length_head]
    exact headLength_pos _
  | bytes content =>
    rw [encode, byteString, List.length_append, length_head]
    exact Nat.add_pos_left (headLength_pos _) _
  | text content | array items | map entries | tagged tag item =>
    rw [encode, List.length_append, length_head]
    exact Nat.add_pos_left (headLength_pos _) _
  | pieces content | openArray items => simp [encode]
  | bool b => cases b <;> simp [encode]
  | null => simp [encode]

theorem length_unsigned (n : UInt64) : (unsigned n).length = headLength n.toNat := by
  rw [length, encode, length_head]

theorem length_digest {size : Nat} (d : Digest size) :
    (bytes d.bytes).length = headLength size + size := by
  rw [length, encode, byteString, List.length_append, length_head, d.length_eq]

/-! ### Lists of items -/

theorem length_encodeAll (items : List Cbor) :
    (encodeAll items).length = (items.map length).sum := by
  induction items with
  | nil => simp [encodeAll]
  | cons item rest ih =>
    rw [encodeAll, List.length_append, ih, List.map_cons, List.sum_cons]
    rfl

theorem length_encodePairs (entries : List (Cbor × Cbor)) :
    (encodePairs entries).length = (entries.map fun e => e.1.length + e.2.length).sum := by
  induction entries with
  | nil => simp [encodePairs]
  | cons e rest ih =>
    obtain ⟨key, value⟩ := e
    rw [encodePairs, List.length_append, List.length_append, ih, List.map_cons, List.sum_cons]
    rfl

theorem length_array (items : List Cbor) :
    (array items).length = headLength items.length + (items.map length).sum := by
  rw [length, encode, List.length_append, length_encodeAll, length_head]

theorem length_map (entries : List (Cbor × Cbor)) :
    (map entries).length =
      headLength entries.length + (entries.map fun e => e.1.length + e.2.length).sum := by
  rw [length, encode, List.length_append, length_encodePairs, length_head]

/-- A longer item in one place. -/
theorem length_array_le (before after : List Cbor) {c d : Cbor} (le : c.length ≤ d.length) :
    (array (before ++ c :: after)).length ≤ (array (before ++ d :: after)).length := by
  simp only [length_array, List.length_append, List.length_cons, List.map_append, List.map_cons,
    List.sum_append, List.sum_cons]
  omega

theorem length_le_of_mem_array {items : List Cbor} {c : Cbor} (mem : c ∈ items) :
    c.length ≤ (array items).length := by
  have := List.single_le_sum (fun _ _ => Nat.zero_le _) _ (List.mem_map_of_mem (f := length) mem)
  rw [length_array]
  omega

theorem length_le_of_mem_map {entries : List (Cbor × Cbor)} {key value : Cbor}
    (mem : (key, value) ∈ entries) : value.length ≤ (map entries).length := by
  have := List.single_le_sum (fun _ _ => Nat.zero_le _) _
    (List.mem_map_of_mem (f := fun e : Cbor × Cbor => e.1.length + e.2.length) mem)
  rw [length_map]
  dsimp only at this
  omega

/-- Each item takes a byte at least. -/
theorem count_le_array (items : List Cbor) : items.length ≤ (array items).length := by
  have := List.card_nsmul_le_sum (items.map length) 1 (by
    intro n mem
    obtain ⟨c, _, rfl⟩ := List.mem_map.1 mem
    exact length_pos c)
  rw [length_array]
  simp only [List.length_map, smul_eq_mul, mul_one] at this
  omega

theorem count_le_map (entries : List (Cbor × Cbor)) : entries.length ≤ (map entries).length := by
  have := List.card_nsmul_le_sum (entries.map fun e => e.1.length + e.2.length) 1 (by
    intro n mem
    obtain ⟨e, _, rfl⟩ := List.mem_map.1 mem
    have := length_pos e.1
    omega)
  rw [length_map]
  simp only [List.length_map, smul_eq_mul, mul_one] at this
  omega

/-! ### Fields -/

def present (entries : List (UInt8 × Option Cbor)) : List (Cbor × Cbor) :=
  entries.filterMap fun (key, value) => value.map (small key, ·)

/-- Bytes of a field under its key, if it is there. -/
def fieldLength : UInt8 × Option Cbor → Nat
  | (key, some value) => (small key).length + value.length
  | (_, none) => 0

theorem length_present (entries : List (UInt8 × Option Cbor)) :
    (present entries).length = (entries.map (·.2.isSome)).count true := by
  induction entries with
  | nil => rfl
  | cons entry rest ih =>
    obtain ⟨key, value⟩ := entry
    rw [List.map_cons, List.count_cons, ← ih]
    cases value <;> rfl

theorem length_fields (entries : List (UInt8 × Option Cbor)) :
    (fields entries).length =
      headLength ((entries.map (·.2.isSome)).count true) + (entries.map fieldLength).sum := by
  have bytes : ((present entries).map fun e => e.1.length + e.2.length).sum =
      (entries.map fieldLength).sum := by
    induction entries with
    | nil => rfl
    | cons entry rest ih =>
      obtain ⟨key, value⟩ := entry
      rw [List.map_cons, List.sum_cons, ← ih]
      cases value with
      | none => exact (Nat.zero_add _).symm
      | some item => rfl
  rw [← length_present, ← bytes]
  exact length_map (present entries)

/-- Another value in one field. -/
theorem length_fields_replace (before after : List (UInt8 × Option Cbor)) (key : UInt8)
    (c d : Cbor) :
    (fields (before ++ (key, some c) :: after)).length + d.length =
      (fields (before ++ (key, some d) :: after)).length + c.length := by
  simp only [length_fields, List.map_append, List.map_cons, List.sum_append, List.sum_cons,
    fieldLength, Option.isSome_some]
  omega

theorem length_le_of_mem_fields {entries : List (UInt8 × Option Cbor)} (key : UInt8) {value : Cbor}
    (mem : (key, some value) ∈ entries) : value.length ≤ (fields entries).length :=
  @length_le_of_mem_map _ (small key) _ (List.mem_filterMap.2 ⟨_, mem, rfl⟩)

/-- A first field that is there, and no shorter than another one, makes the whole no shorter. -/
theorem length_fields_le (key : UInt8) {old : Option Cbor} {new : Cbor}
    (rest : List (UInt8 × Option Cbor)) (grows : ∀ c ∈ old, c.length ≤ new.length) :
    (fields ((key, old) :: rest)).length ≤ (fields ((key, some new) :: rest)).length := by
  simp only [length_fields, List.map_cons, List.sum_cons, List.count_cons]
  cases old with
  | none =>
    have := headLength_mono (Nat.le_add_right ((rest.map (·.2.isSome)).count true) 1)
    simp only [fieldLength, Option.isSome_none, Option.isSome_some, beq_self_eq_true, if_true,
      Bool.false_beq, Bool.not_true, Bool.false_eq_true, if_false, Nat.add_zero]
    omega
  | some c =>
    have := grows c rfl
    simp only [fieldLength, Option.isSome_some]
    omega

end ConwayTx.Cbor
