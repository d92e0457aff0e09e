import ConwayTx.BuildError
import ConwayTx.Transaction

/-!
# Redeemer layout

The containers of a settled body, in the order the ledger numbers their items. `pointer?` answers
the number of an item, `target?` the item of a number.
-/

namespace ConwayTx

structure RedeemerLayout where
  inputs : List TxIn
  policies : List PolicyId
  credentials : List Credential

namespace RedeemerLayout

def ofBody (b : TxBody) : RedeemerLayout where
  inputs := b.inputs.keys
  policies := (b.mint.getD ∅).keys
  credentials := b.withdrawals.keys.map (·.credential)

def position? (l : RedeemerLayout) : RedeemerTarget → Option Nat
  | .spend ref => l.inputs.idxOf? ref
  | .mint policy => l.policies.idxOf? policy
  | .reward credential => l.credentials.idxOf? credential

def pointer? (l : RedeemerLayout) (target : RedeemerTarget) : Option RedeemerPointer :=
  (l.position? target).map fun i => ⟨target.tag, UInt32.ofNat i⟩

/-- Certificates have no redeemers here. -/
def target? (l : RedeemerLayout) (p : RedeemerPointer) : Option RedeemerTarget :=
  match p.tag with
  | .spend => l.inputs[p.index.toNat]?.map .spend
  | .mint => l.policies[p.index.toNat]?.map .mint
  | .reward => l.credentials[p.index.toNat]?.map .reward
  | .cert => none

def placed (l : RedeemerLayout) (pending : PendingRedeemers) :
    Except BuildError (List (RedeemerPointer × Redeemer)) :=
  pending.entries.mapM fun (target, redeemer) =>
    match l.pointer? target with
    | some pointer => .ok (pointer, redeemer)
    | none => .error (.orphanRedeemer target)

/-- Redeemers under the numbers of their items. -/
def assign (l : RedeemerLayout) (pending : PendingRedeemers) : Except BuildError Redeemers := do
  return SortedMap.ofList (← l.placed pending)

end RedeemerLayout

end ConwayTx
