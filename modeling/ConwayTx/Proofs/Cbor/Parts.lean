import ConwayTx.Digest
import ConwayTx.Proofs.Cbor.Reading

/-!
# Items and their parts

What the items of records are made of tells the records apart: small numbers, signed words, hashes,
the fields that are present (`fields_inj`), and items that travel inside a byte string
(`bytes_encode_inj`).
-/

namespace ConwayTx.Cbor

theorem small_inj {m n : UInt8} (same : small m = small n) : m = n :=
  UInt8.toNat_inj.1 (congrArg UInt64.toNat (unsigned.inj same))

theorem index_inj {m n : UInt32} (same : unsigned m.toUInt64 = unsigned n.toUInt64) : m = n :=
  UInt32.toNat_inj.1 (congrArg UInt64.toNat (unsigned.inj same))

theorem ofInt64_inj {m n : Int64} (same : ofInt64 m = ofInt64 n) : m = n := by
  have word : Function.Injective Int64.toUInt64 :=
    Function.LeftInverse.injective Int64.toInt64_toUInt64
  unfold ofInt64 at same
  split_ifs at same
  · exact word (unsigned.inj same)
  · exact Int64.not_inj.1 (word (negative.inj same))

theorem digest_inj {size : Nat} {a b : Digest size} (same : bytes a.bytes = bytes b.bytes) :
    a = b :=
  Digest.ext (bytes.inj same)

/-- A field that may be absent. -/
theorem field_eq_iff {α : Type} {f : α → Cbor} {x y : Option α}
    (inj : ∀ a ∈ x, ∀ b ∈ y, f a = f b → a = b) : x.map f = y.map f ↔ x = y := by
  refine ⟨?_, congrArg _⟩
  intro same
  cases x with
  | none =>
    cases y with
    | none => rfl
    | some b => cases same
  | some a =>
    cases y with
    | none => cases same
    | some b => exact congrArg some (inj a rfl b rfl (Option.some.inj same))

/-- What may be absent, where nothing is written as null. -/
theorem option_map_inj {α : Type} {f : α → Cbor} (inj : Function.Injective f)
    (something : ∀ a, f a ≠ null) {x y : Option α} (same : option (x.map f) = option (y.map f)) :
    x = y := by
  cases x with
  | none =>
    cases y with
    | none => rfl
    | some b => exact absurd same.symm (something b)
  | some a =>
    cases y with
    | none => exact absurd same (something a)
    | some b => exact congrArg some (inj same)

theorem key_of_mem_present {entries : List (UInt8 × Option Cbor)} {key : UInt8} {item : Cbor}
    (mem : (small key, item) ∈ present entries) : key ∈ entries.map Prod.fst := by
  obtain ⟨e, listed, found⟩ := List.mem_filterMap.1 mem
  obtain ⟨_, _, pair⟩ := Option.map_eq_some_iff.1 found
  rw [← small_inj (Prod.mk.inj pair).1]
  exact List.mem_map_of_mem listed

/-- Under keys that do not repeat, all the fields are read back, absent ones too. -/
theorem fields_inj {xs ys : List (UInt8 × Option Cbor)} (keys : xs.map Prod.fst = ys.map Prod.fst)
    (distinct : (xs.map Prod.fst).Nodup) (same : fields xs = fields ys) : xs = ys := by
  replace same : present xs = present ys := map.inj same
  induction xs generalizing ys with
  | nil => exact (List.map_eq_nil_iff.1 keys.symm).symm
  | cons x xs ih =>
    obtain ⟨key, value⟩ := x
    rcases ys with _ | ⟨⟨key', value'⟩, ys⟩
    · cases keys
    obtain ⟨keysHere, others⟩ := List.cons.inj keys
    obtain rfl : key = key' := keysHere
    obtain ⟨fresh, apart⟩ := List.nodup_cons.1 distinct
    cases value with
    | none =>
      cases value' with
      | none => exact congrArg _ (ih others apart same)
      | some item =>
        have mem : (small key, item) ∈ present xs := by
          rw [show present xs = _ from same]
          exact .head _
        exact absurd (key_of_mem_present mem) fresh
    | some item =>
      cases value' with
      | none =>
        have mem : (small key, item) ∈ present ys := by
          rw [show present ys = _ from same.symm]
          exact .head _
        exact absurd (others ▸ key_of_mem_present mem) fresh
      | some item' =>
        obtain ⟨first, rest⟩ := List.cons.inj same
        rw [(Prod.mk.inj first).2, ih others apart rest]

theorem fields_eq_iff (xs ys : List (UInt8 × Option Cbor)) (keys : xs.map Prod.fst = ys.map Prod.fst)
    (distinct : (xs.map Prod.fst).Nodup) : fields xs = fields ys ↔ xs = ys :=
  ⟨fields_inj keys distinct, congrArg _⟩

/-- An item inside a byte string is read back like any other. -/
theorem bytes_encode_inj {a b : Cbor} (short : (bytes a.encode).length < UInt64.size)
    (same : bytes a.encode = bytes b.encode) : a = b :=
  encode_inj ((content_le (bytes a.encode)).trans_lt short) (bytes.inj same)

theorem tagged_bytes_encode_inj {tag : UInt64} {a b : Cbor}
    (short : (tagged tag (bytes a.encode)).length < UInt64.size)
    (same : tagged tag (bytes a.encode) = tagged tag (bytes b.encode)) : a = b :=
  bytes_encode_inj ((content_le (tagged tag (bytes a.encode))).trans_lt short) (tagged.inj same).2

end ConwayTx.Cbor
