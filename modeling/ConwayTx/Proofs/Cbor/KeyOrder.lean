import ConwayTx.Proofs.Cbor.Parts
import ConwayTx.Proofs.SortedMap

/-!
# Maps with their keys in order

Keys of a map are compared by their encodings, byte for byte. Larger numbers and longer strings have
larger headers (`head_lt`), so numbers keep their order when they are encoded (`unsigned_lt`), and
byte strings are ordered by their length before their content (`bytes_lt`).
-/

namespace ConwayTx

/-! ### Bytewise order -/

namespace Bytes

theorem compare_cons (x y : UInt8) (a b : Bytes) :
    compare (x :: a) (y :: b) = (compare x y).then (compare a b) :=
  List.compareLex_cons_cons

theorem compare_self (x : UInt8) : compare x x = .eq := Std.ReflCmp.compare_self

theorem compare_byte {x y : UInt8} (before : x.toNat < y.toNat) : compare x y = .lt :=
  compareOfLessAndEq_eq_lt.2 (UInt8.lt_iff_toNat_lt.2 before)

theorem compare_append_left (front a b : Bytes) :
    compare (front ++ a) (front ++ b) = compare a b := by
  induction front with
  | nil => rfl
  | cons x rest ih =>
    rw [List.cons_append, List.cons_append, compare_cons, ih, compare_self]
    rfl

/-- What follows strings of one length does not matter where these differ. -/
theorem compare_append_of_lt {a b : Bytes} (same : a.length = b.length) (before : compare a b = .lt)
    (s t : Bytes) : compare (a ++ s) (b ++ t) = .lt := by
  induction a generalizing b with
  | nil =>
    obtain rfl := List.length_eq_zero_iff.1 same.symm
    cases before
  | cons x rest ih =>
    cases b with
    | nil => cases same
    | cons y rest' =>
      rw [compare_cons] at before
      rw [List.cons_append, List.cons_append, compare_cons]
      cases first : compare x y with
      | lt => rfl
      | eq =>
        rw [first] at before
        exact ih (Nat.succ.inj same) before
      | gt =>
        rw [first] at before
        cases before

theorem compare_ofNat {m n : Nat} (before : m % 256 < n % 256) :
    compare (UInt8.ofNat m) (UInt8.ofNat n) = .lt := by
  refine compare_byte ?_
  rw [UInt8.toNat_ofNat', UInt8.toNat_ofNat']
  exact before

theorem bigEndian_lt {width m n : Nat} (before : m < n) (fits : n < capacity width) :
    compare (bigEndian width m) (bigEndian width n) = .lt := by
  induction width generalizing m n with
  | zero =>
    rw [capacity] at fits
    omega
  | succ width ih =>
    rw [capacity] at fits
    rw [bigEndian, bigEndian]
    by_cases high : m / 256 = n / 256
    · rw [high, compare_append_left, compare_cons, compare_ofNat (by omega)]
      rfl
    · refine compare_append_of_lt ?_ (ih (by omega) (by omega)) _ _
      rw [length_bigEndian, length_bigEndian]

end Bytes

namespace Cbor

open Bytes

/-! ### Headers -/

theorem additional_mono {m n : Nat} (le : m ≤ n) : additional m ≤ additional n := by
  unfold additional
  split_ifs <;> omega

theorem head_lt {major m n : Nat} (_ : major < 8) (before : m < n) (word : n < UInt64.size)
    (s t : Bytes) : compare (head major m ++ s) (head major n ++ t) = .lt := by
  have opened (k : Nat) : head major k = UInt8.ofNat (32 * major + additional k) ::
      bigEndian (headLength k - 1) k := opening_eq major (some k)
  have low := additional_lt n
  rw [opened, opened, List.cons_append, List.cons_append, compare_cons]
  rcases (additional_mono before.le).lt_or_eq with less | same
  · rw [compare_ofNat (by omega)]
    rfl
  · rw [same, compare_self]
    -- One first byte: both numbers stand after it, in one width.
    have large : 24 ≤ n := by
      by_contra small
      unfold additional at same
      split_ifs at same <;> omega
    have width := headLength_of_additional same
    rw [width]
    refine compare_append_of_lt ?_ (bigEndian_lt before (lt_capacity_headLength large word)) s t
    rw [length_bigEndian, length_bigEndian]

theorem unsigned_lt {m n : UInt64} (before : m < n) :
    compare (unsigned m).encode (unsigned n).encode = .lt := by
  have below := @head_lt 0 m.toNat n.toNat (by decide) (UInt64.lt_iff_toNat_lt.1 before)
    n.toNat_lt_size [] []
  rwa [List.append_nil, List.append_nil] at below

theorem small_lt {m n : UInt8} (before : m < n) :
    compare (small m).encode (small n).encode = .lt :=
  unsigned_lt (UInt64.lt_iff_toNat_lt.2 (UInt8.lt_iff_toNat_lt.1 before))

/-- Shorter strings come first, strings of one length in bytewise order. -/
theorem bytes_lt {a b : Bytes} (word : b.length < UInt64.size)
    (before : a.length < b.length ∨ a.length = b.length ∧ compare a b = .lt) :
    compare (bytes a).encode (bytes b).encode = .lt := by
  show compare (head 2 a.length ++ a) (head 2 b.length ++ b) = .lt
  rcases before with shorter | ⟨same, before⟩
  · exact head_lt (by decide) shorter word a b
  · rw [same, compare_append_left]
    exact before

/-! ### Maps in order -/

/-- The encoded keys strictly increase, byte for byte. -/
def InOrder (entries : List (Cbor × Cbor)) : Prop :=
  (entries.map fun e => e.1.encode).Pairwise fun a b => compare a b = .lt

instance (entries : List (Cbor × Cbor)) : Decidable (InOrder entries) :=
  inferInstanceAs (Decidable (List.Pairwise _ _))

/-- The order leaves one list for the same entries. -/
theorem InOrder.eq_of_mem_iff {xs ys : List (Cbor × Cbor)} (first : InOrder xs) (second : InOrder ys)
    (same : ∀ e, e ∈ xs ↔ e ∈ ys) : xs = ys := by
  have := SortedMap.asymm_compare fun e : Cbor × Cbor => e.1.encode
  exact (List.pairwise_map.1 first).eq_of_mem_iff (List.pairwise_map.1 second) same

/-- Keys in an order that encoding keeps. -/
theorem inOrder_of_keys {κ : Type} {keys : List κ} {before : κ → κ → Prop} {key : κ → Cbor}
    {entries : List (Cbor × Cbor)} (ordered : keys.Pairwise before)
    (named : entries.map Prod.fst = keys.map key)
    (mono : ∀ a b, before a b → compare (key a).encode (key b).encode = .lt) :
    InOrder entries := by
  have encoded : (entries.map fun e => e.1.encode) = keys.map fun k => (key k).encode := by
    have := congrArg (List.map encode) named
    rwa [List.map_map, List.map_map] at this
  rw [InOrder, encoded, List.pairwise_map]
  exact ordered.imp fun before => mono _ _ before

theorem inOrder_present {fields : List (UInt8 × Option Cbor)}
    (ordered : (fields.map Prod.fst).Pairwise (· < ·)) : InOrder (present fields) := by
  have kept : (fields.filter fun e => e.2.isSome).Sublist fields := List.filter_sublist
  refine inOrder_of_keys (ordered.sublist (kept.map _)) ?_ fun _ _ => small_lt
  clear ordered kept
  induction fields with
  | nil => rfl
  | cons e rest ih =>
    obtain ⟨key, value⟩ := e
    cases value with
    | none => exact ih
    | some item => exact congrArg _ ih

mutual

/-- All maps in the item, at whatever depth, are in order. -/
def isOrdered : Cbor → Bool
  | array items | openArray items => allOrdered items
  | map entries => InOrder entries && pairsOrdered entries
  | tagged _ item => isOrdered item
  | unsigned _ | negative _ | bytes _ | pieces _ | text _ | bool _ | null => true

def allOrdered : List Cbor → Bool
  | [] => true
  | item :: rest => isOrdered item && allOrdered rest

def pairsOrdered : List (Cbor × Cbor) → Bool
  | [] => true
  | (key, value) :: rest => isOrdered key && isOrdered value && pairsOrdered rest

end

theorem allOrdered_iff {items : List Cbor} :
    allOrdered items = true ↔ ∀ item ∈ items, item.isOrdered = true := by
  induction items with
  | nil => simp [allOrdered]
  | cons item rest ih => simp [allOrdered, ih]

theorem pairsOrdered_iff {entries : List (Cbor × Cbor)} :
    pairsOrdered entries = true ↔
      ∀ e ∈ entries, e.1.isOrdered = true ∧ e.2.isOrdered = true := by
  induction entries with
  | nil => simp [pairsOrdered]
  | cons e rest ih => simp [pairsOrdered, ih]

@[simp] theorem isOrdered_unsigned (n : UInt64) : (unsigned n).isOrdered = true := rfl

@[simp] theorem isOrdered_small (n : UInt8) : (small n).isOrdered = true := rfl

@[simp] theorem isOrdered_bytes (content : Bytes) : (bytes content).isOrdered = true := rfl

@[simp] theorem isOrdered_text (content : String) : (text content).isOrdered = true := rfl

@[simp] theorem isOrdered_tagged (tag : UInt64) (item : Cbor) :
    (tagged tag item).isOrdered = item.isOrdered := rfl

@[simp] theorem isOrdered_ofInt64 (n : Int64) : (ofInt64 n).isOrdered = true := by
  unfold ofInt64
  split <;> rfl

@[simp] theorem isOrdered_array {items : List Cbor} :
    (array items).isOrdered = true ↔ ∀ item ∈ items, item.isOrdered = true := by
  rw [isOrdered, allOrdered_iff]

theorem isOrdered_map {entries : List (Cbor × Cbor)} :
    (map entries).isOrdered = true ↔ InOrder entries ∧
      ∀ e ∈ entries, e.1.isOrdered = true ∧ e.2.isOrdered = true := by
  rw [isOrdered, Bool.and_eq_true, decide_eq_true_iff, pairsOrdered_iff]

@[simp] theorem isOrdered_option {item : Option Cbor} :
    (option item).isOrdered = true ↔ ∀ c ∈ item, c.isOrdered = true := by
  cases item <;> simp [option, isOrdered]

theorem forall_mem_present {p : UInt8 → Cbor → Prop} {entries : List (UInt8 × Option Cbor)}
    (values : ∀ e ∈ entries, ∀ c ∈ e.2, p e.1 c) :
    ∀ e ∈ present entries, ∃ key, e.1 = small key ∧ p key e.2 := by
  intro e mem
  obtain ⟨field, listed, found⟩ := List.mem_filterMap.1 mem
  obtain ⟨item, value, rfl⟩ := Option.map_eq_some_iff.1 found
  exact ⟨field.1, rfl, values field listed item value⟩

theorem isOrdered_fields {entries : List (UInt8 × Option Cbor)}
    (ordered : (entries.map Prod.fst).Pairwise (· < ·))
    (values : ∀ e ∈ entries, ∀ c ∈ e.2, c.isOrdered = true) :
    (fields entries).isOrdered = true := by
  refine isOrdered_map.2 ⟨inOrder_present ordered, fun e mem => ?_⟩
  obtain ⟨key, named, value⟩ := forall_mem_present (p := fun _ c => c.isOrdered = true) values e mem
  rw [named]
  exact ⟨rfl, value⟩

end Cbor

end ConwayTx
