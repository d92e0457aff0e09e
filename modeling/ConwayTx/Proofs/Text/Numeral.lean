import ConwayTx.Text.Numeral
import Mathlib

/-!
# Numerals read

Texts of digits are read as the numbers they are written for, with a plus sign in front or without
one; no other text is a numeral (`digitsValue?_eq_some_iff`, `numeral?_eq_some_iff`).
-/

namespace ConwayTx.Text

abbrev Digit := Fin 10

def digitChar (d : Digit) : Char := Char.ofNat (48 + d)

/-- The number of these digits, the most significant one first. -/
def number (ds : List Digit) : ℕ := Nat.ofDigits 10 (ds.map Fin.val).reverse

theorem digitChar_plain : ∀ d : Digit, (digitChar d).isDigit = true ∧
    (digitChar d).toNat = 48 + d ∧ digitChar d ≠ '.' ∧ digitChar d ≠ '+' := by
  decide

theorem exists_digit {c : Char} (digit : c.isDigit = true) : ∃ d, digitChar d = c := by
  obtain ⟨low, high⟩ : 48 ≤ c.toNat ∧ c.toNat ≤ 57 := Char.isDigit_iff_toNat.1 digit
  refine ⟨⟨c.toNat - 48, by omega⟩, ?_⟩
  rw [digitChar, Nat.add_sub_of_le low, Char.ofNat_toNat]

theorem all_isDigit_iff {cs : List Char} :
    cs.all Char.isDigit = true ↔ ∃ ds : List Digit, cs = ds.map digitChar := by
  rw [List.all_eq_true]
  constructor
  · intro digits
    have read : cs ∈ Set.range (List.map digitChar) := by
      rw [Set.range_list_map]
      exact fun c mem => exists_digit (digits c mem)
    obtain ⟨ds, same⟩ := read
    exact ⟨ds, same.symm⟩
  · rintro ⟨ds, rfl⟩ c mem
    obtain ⟨d, _, rfl⟩ := List.mem_map.1 mem
    exact (digitChar_plain d).1

theorem number_append (ds ds' : List Digit) :
    number (ds ++ ds') = number ds * 10 ^ ds'.length + number ds' := by
  rw [number, List.map_append, List.reverse_append, Nat.ofDigits_append, List.length_reverse,
    List.length_map, ← number, ← number, add_comm, mul_comm]

theorem number_lt (ds : List Digit) : number ds < 10 ^ ds.length := by
  have bounded : ∀ d ∈ (ds.map Fin.val).reverse, d < 10 := by
    intro d mem
    obtain ⟨digit, _, rfl⟩ := List.mem_map.1 (List.mem_reverse.1 mem)
    exact digit.isLt
  simpa [number] using Nat.ofDigits_lt_base_pow_length (by decide) bounded

/-- The fold multiplies by ten and adds the next digit. -/
theorem foldl_digits (ds : List Digit) :
    (ds.map digitChar).foldl (fun n c => n * 10 + (c.toNat - 48)) 0 = number ds := by
  induction ds using List.reverseRecOn with
  | nil => rfl
  | append_singleton ds d ih =>
    have value : (digitChar d).toNat - 48 = d := by
      rw [(digitChar_plain d).2.1]
      omega
    rw [List.map_append, List.foldl_append, ih, number_append]
    simp [number, value]

theorem digitsValue?_eq_some_iff {cs : List Char} {n : ℕ} :
    digitsValue? cs = some n ↔
      ∃ ds : List Digit, ds ≠ [] ∧ cs = ds.map digitChar ∧ n = number ds := by
  constructor
  · intro h
    unfold digitsValue? at h
    split at h
    · rename_i read
      obtain ⟨ds, rfl⟩ := all_isDigit_iff.1 read.2
      refine ⟨ds, ?_, rfl, ?_⟩
      · rintro rfl
        exact read.1 rfl
      · rw [← foldl_digits, Option.some.inj h]
    · cases h
  · rintro ⟨ds, nonempty, rfl, rfl⟩
    rw [digitsValue?, if_pos ⟨by simpa using nonempty, all_isDigit_iff.2 ⟨ds, rfl⟩⟩, foldl_digits]

/-- A sign in front of digits, if there is one. -/
def sign (signed : Bool) : List Char := if signed then ['+'] else []

theorem numeral?_eq_some_iff {cs : List Char} {n : ℕ} :
    numeral? cs = some n ↔ ∃ signed, ∃ ds : List Digit, ds ≠ [] ∧
      cs = sign signed ++ ds.map digitChar ∧ n = number ds := by
  constructor
  · intro h
    unfold numeral? at h
    split at h
    · obtain ⟨ds, nonempty, rfl, same⟩ := digitsValue?_eq_some_iff.1 h
      exact ⟨true, ds, nonempty, rfl, same⟩
    · obtain ⟨ds, nonempty, rfl, same⟩ := digitsValue?_eq_some_iff.1 h
      exact ⟨false, ds, nonempty, rfl, same⟩
  · rintro ⟨signed, ds, nonempty, rfl, rfl⟩
    have read : digitsValue? (ds.map digitChar) = some (number ds) :=
      digitsValue?_eq_some_iff.2 ⟨ds, nonempty, rfl, rfl⟩
    cases signed with
    | true => exact read
    | false =>
      unfold numeral?
      split
      · rename_i rest plus
        have first : '+' ∈ ds.map digitChar := by
          rw [show ds.map digitChar = '+' :: rest from plus]
          exact .head _
        obtain ⟨d, _, same⟩ := List.mem_map.1 first
        exact absurd same (digitChar_plain d).2.2.2
      · exact read

end ConwayTx.Text
