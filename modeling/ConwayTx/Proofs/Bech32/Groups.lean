import ConwayTx.Bech32
import Mathlib

/-!
# Groups of bits

A width of bits and the number they stand for determine each other (`ofBits_bits`, `bits_ofBits`).
Cutting bits into groups adds zeros behind the last one (`exists_padding`), so bytes cut into symbols
of five bits are read back, with less than a symbol to drop (`ofSymbols_toSymbols`).
-/

namespace ConwayTx.Bech32

/-! ### Bits and numbers -/

@[simp] theorem length_bits (width n : ℕ) : (bits width n).length = width := by
  induction width with
  | zero => rfl
  | succ width ih => rw [bits, List.length_cons, ih]

theorem foldl_bits (bs : List Bool) (n : ℕ) :
    bs.foldl (fun n b => 2 * n + b.toNat) n = n * 2 ^ bs.length + ofBits bs := by
  induction bs generalizing n with
  | nil => simp [ofBits]
  | cons b rest ih =>
    rw [ofBits, List.foldl_cons, List.foldl_cons, ih, ih (2 * 0 + b.toNat), List.length_cons]
    ring

theorem ofBits_cons (b : Bool) (bs : List Bool) :
    ofBits (b :: bs) = 2 ^ bs.length * b.toNat + ofBits bs := by
  rw [ofBits, List.foldl_cons, foldl_bits]
  ring

theorem ofBits_lt (bs : List Bool) : ofBits bs < 2 ^ bs.length := by
  induction bs with
  | nil => decide
  | cons b rest ih =>
    rw [ofBits_cons, List.length_cons, Nat.pow_succ]
    cases b <;> simp <;> omega

theorem ofBits_bits (width n : ℕ) : ofBits (bits width n) = n % 2 ^ width := by
  induction width with
  | zero => rw [Nat.pow_zero, Nat.mod_one]; rfl
  | succ width ih =>
    rw [bits, ofBits_cons, length_bits, ih, Nat.toNat_testBit, Nat.mod_pow_succ, Nat.add_comm]

theorem bits_congr {width m n : ℕ} (same : ∀ i < width, m.testBit i = n.testBit i) :
    bits width m = bits width n := by
  induction width with
  | zero => rfl
  | succ width ih => rw [bits, bits, same width (Nat.lt_add_one _), ih fun i lt => same i (by omega)]

theorem bits_ofBits (bs : List Bool) : bits bs.length (ofBits bs) = bs := by
  induction bs with
  | nil => rfl
  | cons b rest ih =>
    have low : ∀ i < rest.length, (ofBits (b :: rest)).testBit i = (ofBits rest).testBit i := by
      intro i lt
      rw [ofBits_cons, Nat.testBit_two_pow_mul_add _ (ofBits_lt rest), if_pos lt]
    have top : (ofBits (b :: rest)).testBit rest.length = b := by
      rw [ofBits_cons, Nat.testBit_two_pow_mul_add _ (ofBits_lt rest), if_neg (lt_irrefl _),
        Nat.sub_self]
      cases b <;> rfl
    rw [List.length_cons, bits, top, bits_congr low, ih]

/-! ### Cutting -/

variable {width : ℕ}

theorem paddedGroups_lt (bs : List Bool) : ∀ g ∈ paddedGroups width bs, g < 2 ^ width := by
  fun_induction paddedGroups width bs with
  | case1 => simp
  | case2 bs some group ih =>
    have whole : (group ++ List.replicate (width - group.length) false).length = width := by
      have short : group.length ≤ width := List.length_take_le _ _
      rw [List.length_append, List.length_replicate]
      omega
    have bound := ofBits_lt (group ++ List.replicate (width - group.length) false)
    rw [whole] at bound
    exact List.forall_mem_cons.2 ⟨bound, ih⟩

/-- The groups hold the bits, and less than a group of zeros behind them. -/
theorem exists_padding (pos : 0 < width) (bs : List Bool) :
    ∃ padding < width, (paddedGroups width bs).flatMap (bits width) =
      bs ++ List.replicate padding false := by
  fun_induction paddedGroups width bs with
  | case1 bs none =>
    have empty : bs = [] := none.resolve_right (by omega)
    exact ⟨0, pos, by rw [empty]; rfl⟩
  | case2 bs some group ih =>
    obtain ⟨padding, less, rest⟩ := ih
    have nonempty : bs.length ≠ 0 := fun zero => some (.inl (List.length_eq_zero_iff.1 zero))
    have cut : group.length = min width bs.length := List.length_take
    have whole : (group ++ List.replicate (width - group.length) false).length = width := by
      rw [List.length_append, List.length_replicate]
      omega
    have first := bits_ofBits (group ++ List.replicate (width - group.length) false)
    rw [whole] at first
    rw [List.flatMap_cons, first, rest]
    rcases Nat.lt_or_ge bs.length width with short | long
    · -- The last group: what is left over is empty, and so is not padded.
      have past : bs.drop width = [] := List.drop_eq_nil_of_le short.le
      have all : group = bs := List.take_of_length_le short.le
      have none : (paddedGroups width []).flatMap (bits width) = [] := by
        rw [paddedGroups, if_pos (.inl rfl)]
        rfl
      rw [past, none] at rest
      rw [past, ← rest, List.append_nil, all]
      exact ⟨width - bs.length, by omega, rfl⟩
    · have full : width - group.length = 0 := by omega
      rw [full, List.replicate_zero, List.append_nil, ← List.append_assoc, List.take_append_drop]
      exact ⟨padding, less, rfl⟩

theorem wholeGroups_of_short {bs : List Bool} (short : bs.length < width) :
    wholeGroups width bs = [] := by
  rw [wholeGroups, if_pos (.inl short)]

theorem wholeGroups_append (pos : 0 < width) {first : List Bool} (exact : first.length = width)
    (rest : List Bool) :
    wholeGroups width (first ++ rest) = ofBits first :: wholeGroups width rest := by
  have long : ¬ ((first ++ rest).length < width ∨ width = 0) := by
    rw [List.length_append]
    omega
  conv_lhs => rw [wholeGroups]
  rw [if_neg long, ← exact, List.take_left, List.drop_left]

theorem wholeGroups_bytes (bytes : Bytes) {rest : List Bool} (short : rest.length < 8) :
    wholeGroups 8 ((bytes.flatMap fun b => bits 8 b.toNat) ++ rest) = bytes.map UInt8.toNat := by
  induction bytes with
  | nil => exact wholeGroups_of_short short
  | cons b others ih =>
    rw [List.flatMap_cons, List.append_assoc, wholeGroups_append (by decide) (length_bits 8 _), ih,
      ofBits_bits, Nat.mod_eq_of_lt b.toNat_lt, List.map_cons]

/-! ### Symbols -/

theorem toSymbols_lt (bytes : Bytes) : ∀ s ∈ toSymbols bytes, s < 32 :=
  paddedGroups_lt _

theorem ofSymbols_toSymbols (bytes : Bytes) : ofSymbols (toSymbols bytes) = bytes := by
  obtain ⟨padding, less, whole⟩ :=
    exists_padding (by decide : 0 < 5) (bytes.flatMap fun b => bits 8 b.toNat)
  have short : (List.replicate padding false).length < 8 := by
    rw [List.length_replicate]
    omega
  rw [ofSymbols, toSymbols, whole, wholeGroups_bytes bytes short, List.map_map]
  exact List.map_id'' (fun b => UInt8.ofNat_toNat) bytes

/-- Five bits a symbol, for eight a byte. -/
theorem length_toSymbols (bytes : Bytes) :
    8 * bytes.length ≤ 5 * (toSymbols bytes).length ∧
      5 * (toSymbols bytes).length < 8 * bytes.length + 5 := by
  obtain ⟨padding, less, whole⟩ :=
    exists_padding (by decide : 0 < 5) (bytes.flatMap fun b => bits 8 b.toNat)
  have lengths := congrArg List.length whole
  rw [List.length_append, List.length_replicate, List.length_flatMap, List.length_flatMap] at lengths
  simp only [length_bits, List.map_const', List.sum_replicate, smul_eq_mul] at lengths
  rw [toSymbols]
  omega

end ConwayTx.Bech32
