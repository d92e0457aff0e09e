import ConwayTx.Hex
import ConwayTx.Proofs.Bytes

/-!
# Hexadecimal text read back

Each of the sixteen digits is an ASCII character that is read as its own value, so the text of a byte
string is read as that byte string (`decode_encode`).
-/

namespace ConwayTx.Hex

theorem digit_plain : ∀ {n : ℕ}, n < 16 → (digit (UInt8.ofNat n)).toNat < 128 ∧
    digitValue? (UInt8.ofNat (digit (UInt8.ofNat n)).toNat) = some (UInt8.ofNat n) := by
  decide

/-- The digits of a byte are its two halves. -/
theorem halves (b : UInt8) : ∃ high low : ℕ, high < 16 ∧ low < 16 ∧
    b / 16 = UInt8.ofNat high ∧ b % 16 = UInt8.ofNat low ∧
    UInt8.ofNat high * 16 + UInt8.ofNat low = b := by
  have byte := b.toNat_lt
  refine ⟨b.toNat / 16, b.toNat % 16, by omega, by omega, ?_, ?_, ?_⟩
  · exact UInt8.toNat_inj.1 (by simp; omega)
  · exact UInt8.toNat_inj.1 (by simp; omega)
  · exact UInt8.toNat_inj.1 (by simp; omega)

theorem digits_ascii (bytes : Bytes) :
    ∀ c ∈ bytes.flatMap fun b => [digit (b / 16), digit (b % 16)], c.toNat < 128 := by
  intro c mem
  obtain ⟨b, _, inside⟩ := List.mem_flatMap.1 mem
  obtain ⟨high, low, highDigit, lowDigit, first, second, _⟩ := halves b
  rw [first, second] at inside
  rcases List.mem_pair.1 inside with rfl | rfl
  · exact (digit_plain highDigit).1
  · exact (digit_plain lowDigit).1

theorem ofText_encode (bytes : Bytes) : Bytes.ofText (encode bytes) =
    bytes.flatMap fun b =>
      [UInt8.ofNat (digit (b / 16)).toNat, UInt8.ofNat (digit (b % 16)).toNat] := by
  rw [encode, Bytes.ofText_of_ascii (digits_ascii bytes), List.map_flatMap]
  rfl

theorem length_ofText_encode (bytes : Bytes) :
    (Bytes.ofText (encode bytes)).length = 2 * bytes.length := by
  rw [ofText_encode, List.length_flatMap]
  simp [Nat.mul_comm]

theorem decodePairs_digits (bytes : Bytes) (position : ℕ) :
    decodePairs position (bytes.flatMap fun b =>
      [UInt8.ofNat (digit (b / 16)).toNat, UInt8.ofNat (digit (b % 16)).toNat]) = .ok bytes := by
  induction bytes generalizing position with
  | nil => rfl
  | cons b rest ih =>
    obtain ⟨high, low, highDigit, lowDigit, first, second, whole⟩ := halves b
    rw [List.flatMap_cons, first, second, List.cons_append, List.cons_append, List.nil_append,
      decodePairs, (digit_plain highDigit).2, (digit_plain lowDigit).2]
    dsimp only
    rw [ih, whole]
    rfl

theorem decode_encode (bytes : Bytes) : decode (encode bytes) = .ok bytes := by
  have even : (Bytes.ofText (encode bytes)).length % 2 ≠ 1 := by
    rw [length_ofText_encode]
    omega
  rw [decode, if_neg even, ofText_encode]
  exact decodePairs_digits bytes 0

end ConwayTx.Hex
