/-!
# Amounts

Lovelace, slots, fees and budgets are 64-bit words. Sums are formed over `Nat` and brought back
either exactly (`ofNat?`) or clamped to the largest word (`clamp`). Signed quantities have a word of
their own (`signed?`).
-/

namespace ConwayTx

abbrev Amount := UInt64

namespace Amount

def largest : Nat := UInt64.size - 1

def ofNat? (n : Nat) : Option Amount :=
  if n ≤ largest then some (UInt64.ofNat n) else none

def clamp (n : Nat) : Amount := UInt64.ofNat (min n largest)

/-- The exact sum of a list. -/
def total : List Amount → Nat
  | [] => 0
  | a :: rest => a.toNat + total rest

/-- The sum of a list, if a word holds it. -/
def sum? (amounts : List Amount) : Option Amount := ofNat? (total amounts)

/-- A signed word, if one holds the integer. -/
def signed? (n : Int) : Option Int64 :=
  if Int64.minValue.toInt ≤ n ∧ n ≤ Int64.maxValue.toInt then some (Int64.ofInt n) else none

theorem toNat_le_largest (a : Amount) : a.toNat ≤ largest := by
  have := a.toNat_lt_size; simp only [largest]; omega

@[simp] theorem toNat_clamp (n : Nat) : (clamp n).toNat = min n largest := by
  have small : min n largest < UInt64.size := by
    have : 0 < UInt64.size := by decide
    simp only [largest]; omega
  exact UInt64.toNat_ofNat_of_lt' small

theorem ofNat?_eq_some_iff {n : Nat} {a : Amount} : ofNat? n = some a ↔ a.toNat = n := by
  unfold ofNat? largest
  split <;> rename_i bound
  · have small : n < UInt64.size := by
      have : 0 < UInt64.size := by decide
      omega
    constructor
    · intro h
      cases h
      exact UInt64.toNat_ofNat_of_lt' small
    · rintro rfl
      simp
  · have := a.toNat_lt_size
    simp only [reduceCtorEq, false_iff]
    omega

theorem ofNat?_eq_none_iff {n : Nat} : ofNat? n = none ↔ largest < n := by
  simp [ofNat?]

end Amount

end ConwayTx
