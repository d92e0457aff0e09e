import ConwayTx.Draft

/-!
# Fees

What script runs cost, and what a transaction costs once it is signed.
-/

namespace ConwayTx.Fee

/-- Memory and steps at their prices, rounded up once. -/
def scripts (units : ExUnits) (params : ProtocolParams) : Except Failure Amount :=
  let memory := Fraction.scale units.mem params.priceMem
  let steps := Fraction.scale units.steps params.priceStep
  match (memory.add? steps).bind Fraction.Wide.ceil? with
  | none => .error .overflow
  | some cost =>
    match Amount.ofNat? cost with
    | some cost => .ok cost
    | none => .error (.refused (.arithmeticOverflow .scripts))

/-- The number of signatures a transaction is priced for. -/
def signatures (tx : Transaction) (stakeWitnesses : Nat) : Nat :=
  1 + tx.body.requiredSigners.size + stakeWitnesses

/-- With placeholders for all its signatures. -/
def signedShape (tx : Transaction) (stakeWitnesses : Nat) : Transaction :=
  { tx with witnesses := { tx.witnesses with
      keys := List.replicate (signatures tx stakeWitnesses) KeyWitness.placeholder } }

structure Estimate where
  fee : Amount
  size : Nat

def estimate (params : ProtocolParams) (scriptCost padding : Amount) (stakeWitnesses : Nat)
    (tx : Transaction) : Except EncodeError Estimate := do
  let size ← (signedShape tx stakeWitnesses).size
  let fee := Amount.clamp ((params.sizeFee size).toNat + scriptCost.toNat + padding.toNat)
  return ⟨fee, size⟩

end ConwayTx.Fee
