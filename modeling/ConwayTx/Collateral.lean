import ConwayTx.Fraction
import ConwayTx.Output.Minimum
import ConwayTx.Selection

/-!
# Collateral

The output that is lost when a script fails: key-locked, ADA-only, and either exactly the target or
with enough excess for an output that returns it.
-/

namespace ConwayTx.Collateral

structure Choice where
  input : Utxo
  returned : Option TxOutput
  total : Amount

/-- The share of a fee in hundredths, rounded up. -/
def forFee (fee : Amount) (percent : UInt32) : Except Failure Amount :=
  match Fraction.reduce? percent.toUInt64 100 with
  | none => .error .overflow
  | some share =>
    match (Fraction.scale fee share).ceil? with
    | none => .error .overflow
    | some amount =>
      match Amount.ofNat? amount with
      | some amount => .ok amount
      | none => .error (.refused (.arithmeticOverflow .collateral))

def isEligible (u : Utxo) : Bool :=
  u.isAdaOnly && (u.address.paymentCredential?.bind Credential.keyHash?).isSome

/-- How an output serves for the target, if it does. Excess too small for an output rules it out. -/
def serve? (target : Amount) (returnAddress : Address) (coinsPerByte : Amount) (u : Utxo) :
    Except BuildError (Option Choice) := do
  if u.coin < target then return none
  else if u.coin = target then return some ⟨u, none, target⟩
  else
    let returned : TxOutput := { address := returnAddress, value := Value.ofCoin (u.coin - target) }
    let required ← returned.minCoin coinsPerByte
    if returned.coin < required then return none
    else return some ⟨u, some returned, target⟩

def firstServing (target : Amount) (returnAddress : Address) (coinsPerByte : Amount) :
    List Utxo → Except BuildError Choice
  | [] => .error (.noCollateral target)
  | u :: rest => do
    match ← serve? target returnAddress coinsPerByte u with
    | some choice => return choice
    | none => firstServing target returnAddress coinsPerByte rest

/-- Unused outputs from the smallest up, then those already chosen for spending. -/
def select (pool : List Utxo) (used : SortedSet TxIn) (fallback : List Utxo) (target : Amount)
    (returnAddress : Address) (coinsPerByte : Amount) : Except BuildError Choice :=
  let offered := (Selection.candidates pool used).reverse ++ fallback
  firstServing target returnAddress coinsPerByte (offered.filter isEligible)

end ConwayTx.Collateral
