import ConwayTx.PlutusData.Json
import ConwayTx.ProtocolParams.Json
import ConwayTx.Redeemer

/-!
# Redeemers in JSON
-/

namespace ConwayTx

namespace RedeemerTag

def name : RedeemerTag → String
  | spend => "Spend"
  | mint => "Mint"
  | cert => "Cert"
  | reward => "Reward"

def toJson (tag : RedeemerTag) : Json := .ofText tag.name

def ofJson? (j : Json) : Option RedeemerTag :=
  match j.variant? with
  | some (name, .null) => [spend, mint, cert, reward].find? (·.name = name)
  | _ => none

end RedeemerTag

namespace RedeemerPointer

def toJson (p : RedeemerPointer) : Json :=
  .record [("tag", p.tag.toJson), ("index", .ofNat p.index.toNat)]

def ofJson? (j : Json) : Option RedeemerPointer := do
  let [some tag, some index] ← j.fields? ["tag", "index"] | none
  return ⟨← RedeemerTag.ofJson? tag, ← index.uint32?⟩

end RedeemerPointer

namespace Redeemer

def toJson (r : Redeemer) : Json :=
  .record [("data", r.data.toJson), ("ex_units", r.exUnits.toJson)]

def ofJson? (j : Json) : Option Redeemer := do
  let [some data, some exUnits] ← j.fields? ["data", "ex_units"] | none
  return ⟨← PlutusData.readWithin? (Json.maxNesting - 1) data, ← ExUnits.ofJson? exUnits⟩

end Redeemer

end ConwayTx
