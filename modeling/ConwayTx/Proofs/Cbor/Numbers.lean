import ConwayTx.Proofs.Cbor.Parts
import ConwayTx.Proofs.Outcome
import ConwayTx.Proofs.SortedMap

/-!
# Numbers in items

The number that an item stands for, and what a map has under a byte string. Integers of the two
integer types are written as the numbers they are (`integer?_ofInt?`), all others are not written
(`ofInt?_eq_none_iff`).
-/

namespace ConwayTx.Cbor

open Outcome

/-! ### Integers -/

def integer? : Cbor → Option ℤ
  | unsigned n => some n.toNat
  | negative n => some (-1 - n.toNat)
  | _ => none

theorem integer?_ofInt? {n : ℤ} {item : Cbor} (h : ofInt? n = some item) :
    item.integer? = some n := by
  cases n with
  | ofNat n =>
    obtain ⟨word, fits, rfl⟩ := Option.map_eq_some_iff.1 h
    rw [integer?, Amount.ofNat?_eq_some_iff.1 fits]
    rfl
  | negSucc n =>
    obtain ⟨word, fits, rfl⟩ := Option.map_eq_some_iff.1 h
    rw [integer?, Amount.ofNat?_eq_some_iff.1 fits, Int.negSucc_eq]
    congr 1
    omega

theorem ofInt?_eq_none_iff {n : ℤ} : ofInt? n = none ↔ n < -2 ^ 64 ∨ 2 ^ 64 - 1 < n := by
  have largest : Amount.largest = 2 ^ 64 - 1 := by decide
  cases n with
  | ofNat n =>
    rw [ofInt?, Option.map_eq_none_iff, Amount.ofNat?_eq_none_iff, largest, Int.ofNat_eq_natCast]
    omega
  | negSucc n =>
    rw [ofInt?, Option.map_eq_none_iff, Amount.ofNat?_eq_none_iff, largest]
    omega

theorem integer?_ofInt64 (n : Int64) : (ofInt64 n).integer? = some n.toInt := by
  have below := Int64.toInt_lt n
  have above := Int64.le_toInt n
  unfold ofInt64
  split
  · rename_i nonneg
    have sign := Int64.le_iff_toInt_le.1 nonneg
    rw [integer?, Int64.toNat_toUInt64_of_le nonneg]
    exact congrArg some (Int.toNat_of_nonneg sign)
  · rename_i negative
    have sign := Int64.lt_iff_toInt_lt.1 (Int64.not_le.1 negative)
    replace sign : n.toInt < 0 := sign
    have complement : (~~~n).toInt = -n.toInt - 1 := by
      rw [Int64.toInt_not]
      exact Int.bmod_eq_of_le (by omega) (by omega)
    have nonneg : 0 ≤ ~~~n := by
      refine Int64.le_iff_toInt_le.2 ?_
      show 0 ≤ (~~~n).toInt
      omega
    rw [integer?, Int64.toNat_toUInt64_of_le nonneg]
    have number : ((~~~n).toNatClampNeg : ℤ) = (~~~n).toInt := by
      refine Int.toNat_of_nonneg ?_
      omega
    rw [number, complement]
    congr 1
    omega

/-! ### Under byte strings -/

def isBytes (key : Bytes) : Cbor → Bool
  | bytes content => content = key
  | _ => false

/-- What a map has under a byte string. -/
def under? (key : Bytes) : Cbor → Option Cbor
  | map entries => (entries.find? fun e => isBytes key e.1).map Prod.snd
  | _ => none

/-- A map that is written entry by entry has under a key what is written of the value that is listed
under it, and nothing where none is. -/
theorem under?_written {ε κ β : Type} [Ord κ] [Std.LawfulEqOrd κ] (key : κ → Bytes)
    (inj : Function.Injective key) {write : β → Except ε Cbor} {l : List (κ × β)}
    {entries : List (Cbor × Cbor)}
    (written : l.mapM (fun e => do return (Cbor.bytes (key e.1), ← write e.2)) = .ok entries) (k : κ) :
    Option.Rel (fun v item => (k, v) ∈ l ∧ write v = .ok item) (SortedMap.findIn k l)
      ((map entries).under? (key k)) := by
  have steps := mapM_ok written
  clear written
  induction steps with
  | nil => exact .none
  | @cons e item rest items one _ ih =>
    obtain ⟨k', v⟩ := e
    obtain ⟨value, wrote, one⟩ := bind_ok one
    obtain rfl := pure_ok one
    show Option.Rel _ (if compare k k' = .eq then some v else SortedMap.findIn k rest)
      ((((bytes (key k'), value) :: items).find? fun e => isBytes (key k) e.1).map Prod.snd)
    by_cases same : k = k'
    · subst same
      rw [if_pos (Std.LawfulEqCmp.compare_eq_iff_eq.2 rfl),
        List.find?_cons_of_pos (by simp [isBytes])]
      exact .some ⟨.head _, wrote⟩
    · have apart : key k' ≠ key k := fun equal => same (inj equal).symm
      rw [if_neg (fun equal => same (Std.LawfulEqCmp.compare_eq_iff_eq.1 equal)),
        List.find?_cons_of_neg (by simpa [isBytes] using apart)]
      revert ih
      rw [under?]
      generalize SortedMap.findIn k rest = x
      generalize (items.find? fun e => isBytes (key k) e.1).map Prod.snd = y
      rintro (⟨mem, wrote⟩ | _)
      · exact .some ⟨.tail _ mem, wrote⟩
      · exact .none

end ConwayTx.Cbor
