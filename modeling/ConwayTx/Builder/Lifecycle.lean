import ConwayTx.Builder.Build

/-!
# The life of a builder

A builder is finalized once. A transaction comes out and can be signed and handed in, or it fails
for good and keeps what it had collected.
-/

namespace ConwayTx.Builder

/-- A run that ends without an answer leaves the builder as it was. -/
def finalize (b : Builder) (chain : Chain) : Except Failure Transaction × Builder :=
  match b.stage with
  | .finalized .. => (.error (.refused .alreadyFinalized), b)
  | .failed => (.error (.refused .finalizeFailed), b)
  | .collecting =>
    match b.build chain with
    | .ok balanced => (.ok balanced.tx, { b with stage := .finalized balanced.tx balanced.inputs })
    | .error .overflow => (.error .overflow, b)
    | .error (.refused error) => (.error (.refused error), { b with stage := .failed })

def tx (b : Builder) : Except BuildError Transaction :=
  match b.stage with
  | .finalized tx _ => .ok tx
  | .collecting | .failed => .error .notFinalized

def encodeTx (b : Builder) : Except BuildError Bytes := do
  let tx ← b.tx
  tx.encode

def txHash (b : Builder) : Except BuildError TxId := do
  let tx ← b.tx
  tx.hash

/-- Spending inputs in the order that redeemer positions refer to. -/
def sortedInputs (b : Builder) : Except BuildError (List Utxo) :=
  match b.stage with
  | .finalized _ inputs => .ok (inputs.mergeSort fun u v => (compare u.ref v.ref).isLE)
  | .collecting | .failed => .error .notFinalized

/-- Spending inputs, then collateral. -/
def usedRefs (b : Builder) : Except BuildError (List TxIn) := do
  let tx ← b.tx
  return tx.body.inputs.keys ++ tx.body.collateral.keys

def addKeyWitness (b : Builder) (witness : KeyWitness) : Except BuildError Builder :=
  match b.stage with
  | .finalized tx inputs =>
    let signed := { tx with witnesses := tx.witnesses.addKey witness }
    .ok { b with stage := .finalized signed inputs }
  | .collecting | .failed => .error .notFinalized

/-- A witness of the wallet's. -/
def sign (b : Builder) : Except BuildError Builder := do
  match b.wallet with
  | none => throw (.backend .noWallet)
  | some wallet =>
    let hash ← b.txHash
    match wallet.sign hash with
    | .ok witness => b.addKeyWitness witness
    | .error error => throw (.backend (.signing error))

def signWithSeed (b : Builder) (seed : Digest 32) : Except BuildError Builder := do
  let hash ← b.txHash
  b.addKeyWitness (.ofSeed seed hash)

/-- Hands in the encoded transaction. What that does to a chain, and what is answered, is `handIn`. -/
def submit {σ : Type} (b : Builder) (handIn : σ → Bytes → Except String TxId × σ) (chain : σ) :
    Except BuildError TxId × σ :=
  match b.encodeTx with
  | .ok encoded =>
    let (answer, after) := handIn chain encoded
    (ChainTask.submit.ask answer, after)
  | .error error => (.error error, chain)

end ConwayTx.Builder
