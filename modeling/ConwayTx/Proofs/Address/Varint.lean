import ConwayTx.Address.Raw
import Mathlib

/-!
# Variable-length numbers

Numbers travel as digits of seven bits, and every digit but the last is marked as followed by more
(`Digits`). Reading takes one number off the front, whatever follows it, and keeps what a word holds
of its value (`decode?_eq_some_iff`). Writing gives the shortest digits of a word (`encode_eq_iff`).
-/

namespace ConwayTx.Varint

theorem unmarked_iff : ∀ b : UInt8, b &&& 0x80 = 0 ↔ b.toNat < 128 := by decide +kernel

/-! ### Digits -/

/-- All bytes but the last are marked. -/
inductive Digits : Bytes → Prop
  | last {b : UInt8} (unmarked : b.toNat < 128) : Digits [b]
  | more {b : UInt8} {rest : Bytes} (marked : 128 ≤ b.toNat) (others : Digits rest) :
      Digits (b :: rest)

theorem digits_concat {front : Bytes} {b : UInt8} (marked : ∀ d ∈ front, 128 ≤ d.toNat)
    (unmarked : b.toNat < 128) : Digits (front ++ [b]) := by
  induction front with
  | nil => exact .last unmarked
  | cons d rest ih =>
    obtain ⟨first, others⟩ := List.forall_mem_cons.1 marked
    exact .more first (ih others)

theorem Digits.exists_front {digits : Bytes} (h : Digits digits) :
    ∃ front b, digits = front ++ [b] ∧ (∀ d ∈ front, 128 ≤ d.toNat) ∧ b.toNat < 128 := by
  induction h with
  | @last b unmarked => exact ⟨[], b, rfl, by simp, unmarked⟩
  | @more d rest marked _ ih =>
    obtain ⟨front, b, rfl, others, unmarked⟩ := ih
    exact ⟨d :: front, b, rfl, List.forall_mem_cons.2 ⟨marked, others⟩, unmarked⟩

/-- The number `n` with more digits behind it, without a bound. -/
def extend (n : ℕ) (digits : Bytes) : ℕ := digits.foldl (fun n b => n * 128 + b.toNat % 128) n

def value (digits : Bytes) : ℕ := extend 0 digits

theorem value_concat (front : Bytes) (b : UInt8) :
    value (front ++ [b]) = value front * 128 + b.toNat % 128 := by
  simp [value, extend]

theorem extend_modEq {k m n : ℕ} (same : m ≡ n [MOD k]) (digits : Bytes) :
    extend m digits ≡ extend n digits [MOD k] := by
  induction digits generalizing m n with
  | nil => exact same
  | cons b rest ih => exact ih ((same.mul_right 128).add_right _)

/-! ### Reading -/

/-- Seven more bits. -/
theorem absorb (v : UInt64) (b : UInt8) :
    (v <<< 7) ||| (b &&& 0x7f).toUInt64 = UInt64.ofNat (v.toNat * 128 + b.toNat % 128) := by
  apply UInt64.toNat_inj.1
  have low : (b &&& 0x7f).toUInt64.toNat = b.toNat % 128 := by
    rw [UInt8.toNat_toUInt64, UInt8.toNat_and]
    exact Nat.and_two_pow_sub_one_eq_mod b.toNat 7
  have high : (v <<< 7).toNat = (v.toNat % 2 ^ 57) <<< 7 := by
    rw [UInt64.toNat_shiftLeft, Nat.shiftLeft_eq, Nat.shiftLeft_eq]
    show v.toNat * 128 % 2 ^ 64 = v.toNat % 2 ^ 57 * 128
    omega
  rw [UInt64.toNat_or, low, high, ← Nat.shiftLeft_add_eq_or_of_lt (by omega), Nat.shiftLeft_eq,
    UInt64.toNat_ofNat']
  omega

theorem decodeFrom_append {digits : Bytes} (h : Digits digits) (v : UInt64) (rest : Bytes) :
    decodeFrom v (digits ++ rest) = some (UInt64.ofNat (extend v.toNat digits), rest) := by
  induction h generalizing v with
  | @last b unmarked =>
    simp only [List.cons_append, List.nil_append, decodeFrom, absorb]
    rw [if_pos ((unmarked_iff b).2 unmarked)]
    rfl
  | @more b others marked _ ih =>
    have more : ¬ b &&& 0x80 = 0 := by
      rw [unmarked_iff]
      omega
    simp only [List.cons_append, decodeFrom, absorb]
    rw [if_neg more, ih]
    -- What was read so far is kept as far as a word holds it.
    have kept : (UInt64.ofNat (v.toNat * 128 + b.toNat % 128)).toNat ≡
        v.toNat * 128 + b.toNat % 128 [MOD 2 ^ 64] := by
      rw [UInt64.toNat_ofNat']
      exact Nat.mod_modEq _ _
    have same := extend_modEq kept others
    refine congrArg (fun n => some (n, rest)) (UInt64.toNat_inj.1 ?_)
    rw [UInt64.toNat_ofNat', UInt64.toNat_ofNat']
    exact same

theorem exists_digits {bytes rest : Bytes} {v n : UInt64}
    (h : decodeFrom v bytes = some (n, rest)) :
    ∃ digits, Digits digits ∧ bytes = digits ++ rest := by
  induction bytes generalizing v with
  | nil => cases h
  | cons b others ih =>
    simp only [decodeFrom] at h
    by_cases last : b &&& 0x80 = 0
    · rw [if_pos last] at h
      cases h
      exact ⟨[b], .last ((unmarked_iff b).1 last), rfl⟩
    · rw [if_neg last] at h
      obtain ⟨digits, marked, rfl⟩ := ih h
      rw [unmarked_iff, not_lt] at last
      exact ⟨b :: digits, .more last marked, rfl⟩

theorem decode?_eq_some_iff {bytes rest : Bytes} {n : UInt64} :
    decode? bytes = some (n, rest) ↔
      ∃ digits, Digits digits ∧ bytes = digits ++ rest ∧ n = UInt64.ofNat (value digits) := by
  constructor
  · intro h
    obtain ⟨digits, marked, rfl⟩ := exists_digits h
    rw [decode?, decodeFrom_append marked] at h
    cases h
    exact ⟨digits, marked, rfl, rfl⟩
  · rintro ⟨digits, marked, rfl, rfl⟩
    exact decodeFrom_append marked 0 rest

/-! ### Writing -/

/-- Without a zero in front, and within a word. -/
structure Shortest (digits : Bytes) : Prop where
  marked : Digits digits
  leading : digits.head? ≠ some 0x80
  word : value digits < UInt64.size

theorem leading_succ {n : ℕ} (pos : n ≠ 0) :
    leading n = leading (n / 128) ++ [UInt8.ofNat (128 + n % 128)] := by
  conv_lhs => rw [leading]
  rw [if_neg pos]

theorem leading_zero : leading 0 = [] := by
  rw [leading, if_pos rfl]

theorem marked_leading (n : ℕ) : ∀ d ∈ leading n, 128 ≤ d.toNat := by
  induction n using Nat.strongRecOn with
  | ind n ih =>
    by_cases zero : n = 0
    · rw [zero, leading_zero]
      simp
    · intro d mem
      rw [leading_succ zero] at mem
      rcases List.mem_append.1 mem with front | last
      · exact ih (n / 128) (by omega) d front
      · rw [List.mem_singleton.1 last, UInt8.toNat_ofNat']
        omega

theorem value_leading (n : ℕ) : value (leading n) = n := by
  induction n using Nat.strongRecOn with
  | ind n ih =>
    by_cases zero : n = 0
    · rw [zero, leading_zero]
      rfl
    · rw [leading_succ zero, value_concat, ih (n / 128) (by omega), UInt8.toNat_ofNat']
      omega

theorem head?_leading (n : ℕ) : (leading n).head? ≠ some 0x80 := by
  induction n using Nat.strongRecOn with
  | ind n ih =>
    by_cases zero : n = 0
    · rw [zero, leading_zero]
      simp
    · rw [leading_succ zero, List.head?_append]
      intro first
      rcases Option.or_eq_some_iff.1 first with front | ⟨none, last⟩
      · exact ih (n / 128) (by omega) front
      · -- The first digit is the last one too, so it is all of the number.
        have small : n / 128 = 0 := by
          rw [← value_leading (n / 128), List.head?_eq_none_iff.1 none]
          rfl
        have digit := congrArg UInt8.toNat (Option.some.inj last)
        rw [UInt8.toNat_ofNat'] at digit
        replace digit : (128 + n % 128) % 2 ^ 8 = 128 := digit
        omega

theorem leading_value {front : Bytes} (marked : ∀ d ∈ front, 128 ≤ d.toNat)
    (first : front.head? ≠ some 0x80) : leading (value front) = front := by
  induction front using List.reverseRecOn with
  | nil => exact leading_zero
  | append_singleton front b ih =>
    have high : 128 ≤ b.toNat := marked b (by simp)
    have byte := b.toNat_lt
    have before : leading (value front) = front := by
      refine ih (fun d mem => marked d (by simp [mem])) fun zero => first ?_
      rw [List.head?_append, zero]
      rfl
    have nonzero : value (front ++ [b]) ≠ 0 := by
      intro zero
      rw [value_concat] at zero
      have empty : front = [] := by
        rw [← before, show value front = 0 by omega, leading_zero]
      have digit : b = 0x80 := UInt8.toNat_inj.1 (show b.toNat = 128 by omega)
      rw [empty, digit] at first
      exact first rfl
    rw [leading_succ nonzero, value_concat,
      show (value front * 128 + b.toNat % 128) / 128 = value front by omega,
      show 128 + (value front * 128 + b.toNat % 128) % 128 = b.toNat by omega, before,
      UInt8.ofNat_toNat]

theorem value_encode (n : UInt64) : value (encode n) = n.toNat := by
  rw [encode, value_concat, value_leading, UInt8.toNat_ofNat']
  omega

theorem shortest_encode (n : UInt64) : Shortest (encode n) where
  marked := by
    refine digits_concat (marked_leading _) ?_
    rw [UInt8.toNat_ofNat']
    omega
  leading := by
    rw [encode, List.head?_append]
    intro first
    rcases Option.or_eq_some_iff.1 first with front | ⟨_, last⟩
    · exact head?_leading _ front
    · have digit := congrArg UInt8.toNat (Option.some.inj last)
      rw [UInt8.toNat_ofNat'] at digit
      replace digit : n.toNat % 128 % 2 ^ 8 = 128 := digit
      omega
  word := by
    rw [value_encode]
    exact n.toNat_lt_size

theorem encode_value {digits : Bytes} (h : Shortest digits) :
    encode (UInt64.ofNat (value digits)) = digits := by
  obtain ⟨front, b, rfl, marked, unmarked⟩ := h.marked.exists_front
  have first : front.head? ≠ some 0x80 := by
    intro zero
    apply h.leading
    rw [List.head?_append, zero]
    rfl
  rw [encode, UInt64.toNat_ofNat_of_lt' h.word, value_concat,
    show (value front * 128 + b.toNat % 128) / 128 = value front by omega,
    show (value front * 128 + b.toNat % 128) % 128 = b.toNat by omega, leading_value marked first,
    UInt8.ofNat_toNat]

theorem encode_eq_iff {n : UInt64} {digits : Bytes} :
    encode n = digits ↔ Shortest digits ∧ value digits = n.toNat := by
  constructor
  · rintro rfl
    exact ⟨shortest_encode n, value_encode n⟩
  · rintro ⟨shortest, same⟩
    rw [← encode_value shortest, same, UInt64.ofNat_toNat]

theorem decode?_encode (n : UInt64) (rest : Bytes) :
    decode? (encode n ++ rest) = some (n, rest) := by
  refine decode?_eq_some_iff.2 ⟨encode n, (shortest_encode n).marked, rfl, ?_⟩
  rw [value_encode, UInt64.ofNat_toNat]

end ConwayTx.Varint
