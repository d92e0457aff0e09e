import ConwayTx.ExUnits
import ConwayTx.PlutusData
import ConwayTx.SortedMap

/-!
# Redeemers

The argument and budget of a script run, keyed by where the transaction needs it.
-/

namespace ConwayTx

inductive RedeemerTag where
  | spend
  | mint
  | cert
  | reward
deriving DecidableEq

def RedeemerTag.number : RedeemerTag → UInt8
  | spend => 0
  | mint => 1
  | cert => 2
  | reward => 3

/-- A position in one of the sorted containers of a transaction body. -/
@[ext]
structure RedeemerPointer where
  tag : RedeemerTag
  index : UInt32
deriving DecidableEq

namespace RedeemerPointer

def tagNumber (p : RedeemerPointer) : UInt8 := p.tag.number

instance : Ord RedeemerPointer := ⟨compareLex (compareOn tagNumber) (compareOn index)⟩

instance : Std.TransOrd RedeemerPointer :=
  inferInstanceAs (Std.TransCmp (compareLex (compareOn tagNumber) (compareOn index)))

theorem tagNumber_inj {a b : RedeemerTag} (h : a.number = b.number) : a = b := by
  revert h; cases a <;> cases b <;> decide

instance : Std.LawfulEqOrd RedeemerPointer where
  eq_of_compare {a b} h := by
    have same : compareLex (compareOn tagNumber) (compareOn index) a b = .eq := h
    simp only [compareLex, compareOn, Ordering.then_eq_eq] at same
    exact RedeemerPointer.ext (tagNumber_inj (Std.LawfulEqCmp.eq_of_compare same.1))
      (Std.LawfulEqCmp.eq_of_compare same.2)

def toCbor (p : RedeemerPointer) : Cbor := .array [.small p.tag.number, .unsigned p.index.toUInt64]

end RedeemerPointer

structure Redeemer where
  data : PlutusData
  exUnits : ExUnits
deriving DecidableEq

def Redeemer.toCbor (r : Redeemer) : Cbor := .array [r.data.toCbor, r.exUnits.toCbor]

abbrev Redeemers := SortedMap RedeemerPointer Redeemer

def Redeemers.toCbor (rs : Redeemers) : Cbor :=
  .map (rs.entries.map fun (pointer, redeemer) => (pointer.toCbor, redeemer.toCbor))

end ConwayTx
