import ConwayTx.Fraction.Decimal
import ConwayTx.Proofs.Bytes
import ConwayTx.Proofs.Fraction
import ConwayTx.Proofs.Text.Numeral

/-!
# Decimal prices read

A plain decimal whose digits fit a word is read as exactly its value, in lowest terms
(`ofDecimal_eq_ok_iff`). One other kind of text is read: the sign is looked for in front of all digits,
and where none stand before the point it is found behind it (`misplaced`).
-/

namespace ConwayTx.Fraction

open Text

/-- A plain decimal: at least one digit, of which at most nineteen are places behind a point. -/
structure Decimal where
  signed : Bool
  whole : List Digit
  fraction : Option (List Digit)
  some_digit : whole ++ fraction.getD [] ≠ []
  places_le : (fraction.getD []).length ≤ 19

/-- What stands behind the whole part: nothing, or a point and the fraction. -/
def pointed : Option (List Char) → List Char
  | none => []
  | some fraction => '.' :: fraction

namespace Decimal

def places (n : Decimal) : List Digit := n.fraction.getD []

def written (n : Decimal) : List Char :=
  sign n.signed ++ n.whole.map digitChar ++ pointed (n.fraction.map (·.map digitChar))

/-- The digits without the point. -/
def number (n : Decimal) : ℕ := Text.number (n.whole ++ n.places)

def value (n : Decimal) : ℚ := Text.number n.whole + Text.number n.places / 10 ^ n.places.length

theorem value_eq (n : Decimal) : n.value = n.number / 10 ^ n.places.length := by
  have scale : (10 : ℚ) ^ n.places.length ≠ 0 := by positivity
  rw [value, number, number_append, eq_div_iff scale, add_mul, div_mul_cancel₀ _ scale]
  push_cast
  ring

end Decimal

/-- A sign behind the point instead of digits before it. -/
def misplaced (ds : List Digit) : List Char := '.' :: '+' :: ds.map digitChar

/-! ### The point -/

theorem splitPoint_pointed {whole : List Char} (absent : '.' ∉ whole) (fraction : Option (List Char)) :
    splitPoint (whole ++ pointed fraction) = (whole, fraction.getD []) := by
  have other : ∀ c ∈ whole, decide (c ≠ '.') = true := by
    intro c mem
    rw [decide_eq_true_eq]
    rintro rfl
    exact absent mem
  rw [splitPoint, List.takeWhile_append_of_pos other, List.dropWhile_append_of_pos other]
  cases fraction <;> simp [pointed]

theorem exists_pointed (cs : List Char) :
    ∃ whole fraction, '.' ∉ whole ∧ cs = whole ++ pointed fraction := by
  by_cases point : '.' ∈ cs
  · obtain ⟨whole, fraction, same, absent⟩ := List.eq_append_cons_of_mem point
    exact ⟨whole, some fraction, absent, same⟩
  · exact ⟨cs, none, point, by simp [pointed]⟩

/-! ### What is read -/

theorem toNat_power {places : ℕ} (fits : places ≤ 19) :
    (UInt64.ofNat (Nat.pow 10 places)).toNat = 10 ^ places := by
  have below : 10 ^ places < 2 ^ 64 :=
    (Nat.pow_le_pow_right (by decide) fits).trans_lt (by decide)
  rw [UInt64.toNat_ofNat']
  exact Nat.mod_eq_of_lt below

/-- The parts of a text that is read, whatever they look like. -/
theorem ofDecimal_eq_ok_iff_parts {text : String} {f : Fraction} {whole fraction : List Char}
    (split : splitPoint (Text.trim text).toList = (whole, fraction)) :
    let places := (Bytes.ofText (String.ofList fraction)).length
    ofDecimal text = .ok f ↔ f.IsLowest ∧ places ≤ 19 ∧ ∃ n ≤ Amount.largest,
      numeral? (whole ++ fraction) = some n ∧ f.toRat = n / 10 ^ places := by
  intro places
  unfold ofDecimal
  rw [split]
  dsimp only
  by_cases empty : whole = [] ∧ fraction = []
  · rw [if_pos empty, empty.1, empty.2]
    refine iff_of_false (fun read => by cases read) ?_
    rintro ⟨_, _, n, _, numeral, _⟩
    cases numeral
  rw [if_neg empty]
  by_cases many : maxPlaces < places
  · rw [if_pos many]
    exact iff_of_false (fun read => by cases read) fun reads => absurd reads.2.1 (not_le.2 many)
  have fits : places ≤ 19 := not_lt.1 many
  have power := toNat_power fits
  have nonzero : UInt64.ofNat (Nat.pow 10 places) ≠ 0 := by
    intro zero
    rw [zero] at power
    exact absurd power.symm (by simp)
  rw [if_neg many, and_iff_right fits]
  cases word : (numeral? (whole ++ fraction)).bind Amount.ofNat? with
  | none =>
    refine iff_of_false (fun read => by cases read) ?_
    rintro ⟨_, n, small, numeral, _⟩
    rw [numeral] at word
    exact absurd small (not_le.2 (Amount.ofNat?_eq_none_iff.1 word))
  | some numer =>
    obtain ⟨n, numeral, same⟩ := Option.bind_eq_some_iff.1 word
    obtain rfl := Amount.ofNat?_eq_some_iff.1 same
    have reduced := reduce?_eq_some_iff (n := numer) (f := f) nonzero
    rw [power, Nat.cast_pow, Nat.cast_ofNat] at reduced
    dsimp only
    refine Iff.trans ?_ (reduced.trans (and_congr_right fun _ => ?_))
    · split
      · rename_i g found
        rw [found, Except.ok.injEq, Option.some.injEq]
      · rename_i missing
        rw [missing]
        exact iff_of_false (fun read => by cases read) fun read => by cases read
    constructor
    · intro value
      exact ⟨_, numer.toNat_le_largest, numeral, value⟩
    · rintro ⟨_, _, numeral', value⟩
      rw [numeral] at numeral'
      rwa [Option.some.inj numeral']

/-! ### The shapes of numerals -/

theorem exists_fraction {fraction : Option (List Char)} {ds : List Digit}
    (read : fraction.getD [] = ds.map digitChar) :
    ∃ digits : Option (List Digit), digits.getD [] = ds ∧
      fraction = digits.map (·.map digitChar) := by
  cases fraction with
  | none =>
    have empty : ds = [] := by simpa using read.symm
    exact ⟨none, empty.symm, rfl⟩
  | some fraction => exact ⟨some ds, rfl, congrArg some read⟩

/-- Whole part and fraction make one numeral: the sign stands in front, or behind the point. -/
theorem numeral?_parts {whole : List Char} {fraction : Option (List Char)} {n : ℕ}
    (read : numeral? (whole ++ fraction.getD []) = some n) :
    (∃ signed, ∃ ws : List Digit, ∃ digits : Option (List Digit),
      whole = sign signed ++ ws.map digitChar ∧ fraction = digits.map (·.map digitChar) ∧
      ws ++ digits.getD [] ≠ [] ∧ n = Text.number (ws ++ digits.getD [])) ∨
    ∃ ds : List Digit, whole = [] ∧ fraction = some ('+' :: ds.map digitChar) ∧ ds ≠ [] ∧
      n = Text.number ds := by
  obtain ⟨signed, ds, nonempty, shape, rfl⟩ := numeral?_eq_some_iff.1 read
  -- The parts behind the sign.
  have parts {rest : List Char} (rested : rest ++ fraction.getD [] = ds.map digitChar) :
      ∃ ws : List Digit, ∃ digits : Option (List Digit), rest = ws.map digitChar ∧
        fraction = digits.map (·.map digitChar) ∧ ws ++ digits.getD [] = ds := by
    obtain ⟨ws, fs, rfl, left, right⟩ := List.map_eq_append_iff.1 rested.symm
    obtain ⟨digits, rfl, same⟩ := exists_fraction right.symm
    exact ⟨ws, digits, left.symm, same, rfl⟩
  cases signed with
  | false =>
    obtain ⟨ws, digits, left, right, rfl⟩ := parts shape
    exact .inl ⟨false, ws, digits, left, right, nonempty, rfl⟩
  | true =>
    rcases List.append_eq_cons_iff.1 shape with ⟨empty, behind⟩ | ⟨rest, front, rested⟩
    · refine .inr ⟨ds, empty, ?_, nonempty, rfl⟩
      cases fraction with
      | none => cases behind
      | some fraction => exact congrArg some behind
    · obtain ⟨ws, digits, left, right, rfl⟩ := parts rested.symm
      exact .inl ⟨true, ws, digits, by rw [front, left]; rfl, right, nonempty, rfl⟩

theorem ascii_digits (ds : List Digit) : ∀ c ∈ ds.map digitChar, c.toNat < 128 := by
  intro c mem
  obtain ⟨d, _, rfl⟩ := List.mem_map.1 mem
  have bound := d.isLt
  rw [(digitChar_plain d).2.1]
  omega

theorem getD_written (digits : Option (List Digit)) :
    (digits.map (·.map digitChar)).getD [] = (digits.getD []).map digitChar := by
  cases digits <;> rfl

theorem length_places (digits : Option (List Digit)) :
    (Bytes.ofText (String.ofList ((digits.map (·.map digitChar)).getD []))).length =
      (digits.getD []).length := by
  rw [getD_written, Bytes.length_ofText_of_ascii (ascii_digits _), List.length_map]

theorem length_places_misplaced (ds : List Digit) :
    (Bytes.ofText (String.ofList ('+' :: ds.map digitChar))).length = ds.length + 1 := by
  rw [Bytes.length_ofText_of_ascii (List.forall_mem_cons.2 ⟨by decide, ascii_digits ds⟩),
    List.length_cons, List.length_map]

theorem point_notMem (signed : Bool) (ds : List Digit) : '.' ∉ sign signed ++ ds.map digitChar := by
  intro mem
  rcases List.mem_append.1 mem with inSign | inDigits
  · cases signed
    · cases inSign
    · exact absurd (List.mem_singleton.1 inSign) (by decide)
  · obtain ⟨d, _, same⟩ := List.mem_map.1 inDigits
    exact (digitChar_plain d).2.2.1 same

theorem ofDecimal_eq_ok_iff (text : String) (f : Fraction) :
    ofDecimal text = .ok f ↔ f.IsLowest ∧
      ((∃ n : Decimal, (Text.trim text).toList = n.written ∧ n.number ≤ Amount.largest ∧
        f.toRat = n.value) ∨
      ∃ ds : List Digit, (Text.trim text).toList = misplaced ds ∧ ds ≠ [] ∧ ds.length ≤ 18 ∧
        f.toRat = Text.number ds / 10 ^ (ds.length + 1)) := by
  constructor
  · intro read
    obtain ⟨whole, fraction, absent, written⟩ := exists_pointed (Text.trim text).toList
    have split := splitPoint_pointed absent fraction
    rw [← written] at split
    obtain ⟨lowest, fits, n, small, numeral, value⟩ := (ofDecimal_eq_ok_iff_parts split).1 read
    refine ⟨lowest, ?_⟩
    rcases numeral?_parts numeral with
      ⟨signed, ws, digits, rfl, rfl, nonempty, rfl⟩ | ⟨ds, rfl, rfl, nonempty, rfl⟩
    · rw [length_places] at fits value
      refine .inl ⟨⟨signed, ws, digits, nonempty, fits⟩, written, small, ?_⟩
      rw [Decimal.value_eq]
      exact value
    · rw [Option.getD_some, length_places_misplaced] at fits value
      refine .inr ⟨ds, written, nonempty, by omega, ?_⟩
      exact_mod_cast value
  · rintro ⟨lowest, ⟨n, written, small, value⟩ | ⟨ds, written, nonempty, short, value⟩⟩
    · have split := splitPoint_pointed (point_notMem n.signed n.whole)
        (n.fraction.map (·.map digitChar))
      rw [← Decimal.written, ← written] at split
      refine (ofDecimal_eq_ok_iff_parts split).2 ⟨lowest, ?_, n.number, small, ?_, ?_⟩
      · rw [length_places]
        exact n.places_le
      · refine numeral?_eq_some_iff.2 ⟨n.signed, n.whole ++ n.places, n.some_digit, ?_, rfl⟩
        rw [getD_written, List.map_append, List.append_assoc]
        rfl
      · rw [length_places, value, Decimal.value_eq]
        rfl
    · have split := splitPoint_pointed (List.not_mem_nil : '.' ∉ []) (some ('+' :: ds.map digitChar))
      rw [show [] ++ pointed _ = misplaced ds from rfl, ← written] at split
      refine (ofDecimal_eq_ok_iff_parts split).2 ⟨lowest, ?_, Text.number ds, ?_, ?_, ?_⟩
      · rw [Option.getD_some, length_places_misplaced]
        omega
      · have below := (number_lt ds).trans_le (Nat.pow_le_pow_right (by decide) short)
        have word : 10 ^ 18 ≤ Amount.largest := by decide
        exact below.le.trans word
      · exact numeral?_eq_some_iff.2 ⟨true, ds, nonempty, rfl, rfl⟩
      · rw [Option.getD_some, length_places_misplaced, value]

/-- The sign behind the point even counts as a place. -/
theorem ofDecimal_plain_not :
    ofDecimal ".+5" = .ok ⟨1, 20, by decide⟩ ∧
      ∀ n : Decimal, (Text.trim ".+5").toList ≠ n.written := by
  refine ⟨by decide +kernel, fun n written => ?_⟩
  have split := splitPoint_pointed (point_notMem n.signed n.whole) (n.fraction.map (·.map digitChar))
  have parts : splitPoint (Text.trim ".+5").toList = ([], ['+', '5']) := by decide +kernel
  rw [← Decimal.written, ← written, parts, getD_written] at split
  have plus : '+' ∈ n.places.map digitChar := by
    rw [Decimal.places, ← (Prod.mk.inj split).2]
    exact .head _
  obtain ⟨d, _, same⟩ := List.mem_map.1 plus
  exact (digitChar_plain d).2.2.2 same

end ConwayTx.Fraction
