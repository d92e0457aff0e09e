import ConwayTx.Bech32
import Mathlib

/-!
# Checksums

A step of the residue is linear in exclusive or (`residueStep_xor`), and six symbols alone make the
number they are the digits of (`foldl_residueStep_of_small`). So the symbols of a checksum add to the
residue exactly what it lacks (`residue_checksum`).
-/

namespace ConwayTx.Bech32

/-! ### One step -/

/-- The generators that a top selects, added to `r`. -/
def feedback (top : ℕ) (selectable : List (ℕ × ℕ)) (r : ℕ) : ℕ :=
  selectable.foldl (fun r (g, i) => if top.testBit i then r ^^^ g else r) r

theorem residueStep_eq (r v : ℕ) :
    residueStep r v =
      feedback (r >>> 25) generators.zipIdx (((r &&& 0x1ffffff) <<< 5) ^^^ v) := rfl

theorem feedback_xor (t u : ℕ) (selectable : List (ℕ × ℕ)) (r s : ℕ) :
    feedback (t ^^^ u) selectable (r ^^^ s) =
      feedback t selectable r ^^^ feedback u selectable s := by
  induction selectable generalizing r s with
  | nil => rfl
  | cons e rest ih =>
    obtain ⟨g, i⟩ := e
    -- A generator that both tops select cancels out.
    have one : (if (t ^^^ u).testBit i then r ^^^ s ^^^ g else r ^^^ s) =
        (if t.testBit i then r ^^^ g else r) ^^^ (if u.testBit i then s ^^^ g else s) := by
      rw [Nat.testBit_xor]
      cases t.testBit i <;> cases u.testBit i
      · rfl
      · exact Nat.xor_assoc r s g
      · exact Nat.xor_right_comm r s g
      · simp [Nat.xor_assoc]
    show feedback (t ^^^ u) rest (if (t ^^^ u).testBit i then r ^^^ s ^^^ g else r ^^^ s) = _
    rw [one, ih]
    rfl

theorem feedback_zero (selectable : List (ℕ × ℕ)) (r : ℕ) : feedback 0 selectable r = r := by
  induction selectable with
  | nil => rfl
  | cons e rest ih =>
    show feedback 0 rest (if (0 : ℕ).testBit e.2 then r ^^^ e.1 else r) = r
    rw [Nat.zero_testBit, if_neg Bool.false_ne_true, ih]

theorem feedback_lt {selectable : List (ℕ × ℕ)} {width : ℕ}
    (bounded : ∀ e ∈ selectable, e.1 < 2 ^ width) (top : ℕ) {r : ℕ} (bound : r < 2 ^ width) :
    feedback top selectable r < 2 ^ width := by
  induction selectable generalizing r with
  | nil => exact bound
  | cons e rest ih =>
    obtain ⟨first, others⟩ := List.forall_mem_cons.1 bounded
    refine ih others ?_
    dsimp only
    split
    · exact Nat.xor_lt_two_pow bound first
    · exact bound

theorem residueStep_xor (r s v w : ℕ) :
    residueStep (r ^^^ s) (v ^^^ w) = residueStep r v ^^^ residueStep s w := by
  rw [residueStep_eq, residueStep_eq, residueStep_eq, ← feedback_xor, Nat.shiftRight_xor_distrib,
    Nat.and_xor_distrib_right, Nat.shiftLeft_xor_distrib]
  congr 1
  ac_rfl

theorem residueStep_lt {v : ℕ} (bound : v < 2 ^ 30) (r : ℕ) : residueStep r v < 2 ^ 30 := by
  have bounded : ∀ e ∈ generators.zipIdx, e.1 < 2 ^ 30 := by decide
  have low : (r &&& 0x1ffffff) < 2 ^ 25 := Nat.and_lt_two_pow r (by decide)
  refine feedback_lt bounded _ (Nat.xor_lt_two_pow ?_ bound)
  rw [Nat.shiftLeft_eq]
  omega

/-- Low bits fit where the shift made room. -/
theorem shiftLeft_xor_of_lt (r : ℕ) {v width : ℕ} (low : v < 2 ^ width) :
    (r <<< width) ^^^ v = r * 2 ^ width + v := by
  apply Nat.eq_of_testBit_eq
  intro i
  rw [Nat.testBit_xor, Nat.testBit_shiftLeft, Nat.mul_comm, Nat.testBit_two_pow_mul_add r low]
  by_cases inside : i < width
  · simp [inside, not_le.2 inside]
  · have high : v.testBit i = false :=
      Nat.testBit_lt_two_pow (low.trans_le (Nat.pow_le_pow_right (by decide) (not_lt.1 inside)))
    simp [inside, high, not_lt.1 inside]

/-- Nothing comes back before the top is reached. -/
theorem residueStep_of_small {r v : ℕ} (small : r < 2 ^ 25) (symbol : v < 32) :
    residueStep r v = r * 32 + v := by
  have top : r >>> 25 = 0 := by
    rw [Nat.shiftRight_eq_div_pow]
    exact Nat.div_eq_of_lt small
  have low : r &&& 0x1ffffff = r := by
    rw [show (0x1ffffff : ℕ) = 2 ^ 25 - 1 from rfl, Nat.and_two_pow_sub_one_eq_mod]
    exact Nat.mod_eq_of_lt small
  rw [residueStep_eq, top, feedback_zero, low]
  have fits : v < 2 ^ 5 := symbol
  exact shiftLeft_xor_of_lt r fits

/-! ### Several steps -/

/-- What is added in front goes its own way. -/
theorem foldl_residueStep_xor (values : List ℕ) (r s : ℕ) :
    values.foldl residueStep (r ^^^ s) =
      (List.replicate values.length 0).foldl residueStep r ^^^ values.foldl residueStep s := by
  induction values generalizing r s with
  | nil => rfl
  | cons v rest ih =>
    have one : residueStep (r ^^^ s) v = residueStep r 0 ^^^ residueStep s v := by
      rw [← residueStep_xor, Nat.zero_xor]
    rw [List.foldl_cons, one, ih]
    rfl

theorem foldl_residueStep_of_small {values : List ℕ} (symbols : ∀ v ∈ values, v < 32) {r k : ℕ}
    (small : r < 32 ^ k) (room : k + values.length ≤ 6) :
    values.foldl residueStep r = values.foldl (fun n v => n * 32 + v) r := by
  induction values generalizing r k with
  | nil => rfl
  | cons v rest ih =>
    obtain ⟨first, others⟩ := List.forall_mem_cons.1 symbols
    rw [List.length_cons] at room
    have below : r < 2 ^ 25 :=
      small.trans_le (Nat.pow_le_pow_right (by decide : 0 < 32) (by omega : k ≤ 5))
    have next : r * 32 + v < 32 ^ (k + 1) := by
      rw [Nat.pow_succ]
      omega
    rw [List.foldl_cons, List.foldl_cons, residueStep_of_small below first]
    exact ih others next (by omega)

/-! ### The checksum of a text -/

/-- The six digits of a number below `2 ^ 30`. -/
theorem foldl_digits {r : ℕ} (bound : r < 2 ^ 30) :
    ((List.range checksumLength).map fun i => (r >>> (5 * (5 - i))) &&& 31).foldl
      (fun n v => n * 32 + v) 0 = r := by
  have low (n : ℕ) : n &&& 31 = n % 32 := Nat.and_two_pow_sub_one_eq_mod n 5
  simp only [checksumLength, List.range_succ, List.range_zero, List.nil_append, List.cons_append,
    List.map_cons, List.map_nil, List.foldl_cons, List.foldl_nil, low, Nat.shiftRight_eq_div_pow]
  omega

theorem checksum_lt (hrp : List Char) (symbols : List ℕ) : ∀ c ∈ checksum hrp symbols, c < 32 := by
  intro c mem
  obtain ⟨i, _, rfl⟩ := List.mem_map.1 mem
  exact Nat.and_lt_two_pow _ (by decide : 31 < 2 ^ 5)

@[simp] theorem length_checksum (hrp : List Char) (symbols : List ℕ) :
    (checksum hrp symbols).length = checksumLength := by
  rw [checksum, List.length_map, List.length_range]

theorem residue_append (values more : List ℕ) :
    residue (values ++ more) = more.foldl residueStep (residue values) :=
  List.foldl_append

theorem residue_checksum (hrp : List Char) (symbols : List ℕ) :
    residue (expandPrefix hrp ++ symbols ++ checksum hrp symbols) = classicConstant := by
  let lacking :=
    residue (expandPrefix hrp ++ symbols ++ List.replicate checksumLength 0) ^^^ classicConstant
  have bound : lacking < 2 ^ 30 := by
    refine Nat.xor_lt_two_pow ?_ (by decide)
    rw [checksumLength, List.replicate_succ', ← List.append_assoc, residue_append]
    exact residueStep_lt (by decide) _
  have digits : (checksum hrp symbols).foldl residueStep 0 = lacking := by
    rw [foldl_residueStep_of_small (checksum_lt hrp symbols) (k := 0) (by decide)
      (length_checksum hrp symbols).le]
    exact foldl_digits bound
  calc residue (expandPrefix hrp ++ symbols ++ checksum hrp symbols)
      = (checksum hrp symbols).foldl residueStep (residue (expandPrefix hrp ++ symbols) ^^^ 0) := by
        rw [residue_append, Nat.xor_zero]
    _ = residue (expandPrefix hrp ++ symbols ++ List.replicate checksumLength 0) ^^^ lacking := by
        rw [foldl_residueStep_xor, length_checksum, digits, ← residue_append]
    _ = classicConstant := by
        rw [← Nat.xor_assoc, Nat.xor_self, Nat.zero_xor]

end ConwayTx.Bech32
