import ConwayTx.Amount
import ConwayTx.Cbor

/-!
# Execution units

Memory and steps a script may use. Sums stay at the largest word.
-/

namespace ConwayTx

structure ExUnits where
  mem : Amount
  steps : Amount
deriving DecidableEq

namespace ExUnits

instance : Inhabited ExUnits := ⟨⟨0, 0⟩⟩

def add (a b : ExUnits) : ExUnits :=
  ⟨Amount.clamp (a.mem.toNat + b.mem.toNat), Amount.clamp (a.steps.toNat + b.steps.toNat)⟩

def largestProduct : Nat := 1 <<< 128 - 1

/-- `percent` hundredths more, rounded up. The product stops at 128 bits, the result at a word. -/
def padded (percent v : Amount) : Amount :=
  Amount.clamp ((min (v.toNat * (100 + percent.toNat)) largestProduct + 99) / 100)

def withMargin (u : ExUnits) (percent : Amount) : ExUnits :=
  ⟨padded percent u.mem, padded percent u.steps⟩

def toCbor (u : ExUnits) : Cbor := .array [.unsigned u.mem, .unsigned u.steps]

end ExUnits

end ConwayTx
