import ConwayTx.Output

/-!
# The minimum of an output

An output has to hold an amount that grows with its size. The amount is part of the output, so
raising it can raise the minimum again.
-/

namespace ConwayTx.TxOutput

/-- Bytes charged on top of the output's own. -/
def overhead : Nat := 160

/-- Raises that `raiseToMinimum` allows. -/
def maxRaises : Nat := 3

def size (o : TxOutput) : Except EncodeError Nat := do return (← o.toCbor).encode.length

def minCoin (coinsPerByte : Amount) (o : TxOutput) : Except EncodeError Amount := do
  return Amount.clamp (coinsPerByte.toNat * ((← o.size) + overhead))

/-- `allowed` is the bound that the failure reports, `left` what remains of it. -/
def raiseLoop (coinsPerByte : Amount) (allowed : Nat) :
    Nat → TxOutput → Except EncodeError TxOutput
  | 0, o => do
    let required ← o.minCoin coinsPerByte
    if required ≤ o.coin then return o else throw (.minimumNotReached allowed o.coin required)
  | left + 1, o => do
    let required ← o.minCoin coinsPerByte
    if required ≤ o.coin then return o
    else raiseLoop coinsPerByte allowed left (o.withCoin required)

/-- Raises the coin to its minimum, at most `rounds` times. -/
def raiseWithin (rounds : Nat) (coinsPerByte : Amount) (o : TxOutput) :
    Except EncodeError TxOutput :=
  raiseLoop coinsPerByte rounds rounds o

def raiseToMinimum (coinsPerByte : Amount) (o : TxOutput) : Except EncodeError TxOutput :=
  raiseWithin maxRaises coinsPerByte o

end ConwayTx.TxOutput
