import ConwayTx.BuildError
import ConwayTx.Output.Minimum
import ConwayTx.Value.Unit

/-!
# Payments

An output to be made: receiver, lovelace, units, and what there is of datum and reference script.
-/

namespace ConwayTx

structure Payment where
  address : Address
  lovelace : Amount
  units : List AssetUnit := []
  datum : Option Datum := none
  script : Option Script := none

namespace Payment

def unitOf (policy : PolicyId) (name : AssetName) (q : Int) : Except InputError AssetUnit :=
  match Amount.signed? q with
  | some quantity => .ok ⟨policy.toHex, name.toHex, quantity⟩
  | none => .error (.quantityOutOfRange s!"{policy}.{name}" q)

/-- A payment of exactly this value, as far as its quantities fit a unit. -/
def ofValue (address : Address) (v : Value) : Except BuildError Payment := do
  let units ← v.positive.mapM fun (policy, name, q) => unitOf policy name q
  return { address, lovelace := v.coin, units }

def addUnit (v : Value) (u : AssetUnit) : Except BuildError Value := do
  if u.quantity < 0 then throw (.input (.negativeQuantity u.display u.quantity))
  let one ← u.value
  v.add one

/-- Burns are no payments. -/
def value (p : Payment) : Except BuildError Value := p.units.foldlM addUnit (.ofCoin p.lovelace)

/-- The output, with its coin raised to the minimum. -/
def output (p : Payment) (coinsPerByte : Amount) : Except BuildError TxOutput := do
  let value ← p.value
  let o : TxOutput := { address := p.address, value, datum := p.datum, script := p.script }
  o.raiseToMinimum coinsPerByte

end Payment

end ConwayTx
