import ConwayTx.Address
import ConwayTx.Digest.Json

/-!
# Addresses in JSON
-/

namespace ConwayTx

namespace Network

def toJson : Network → Json
  | testnet => .ofText "Testnet"
  | mainnet => .ofText "Mainnet"

def ofJson? (j : Json) : Option Network :=
  match j.variant? with
  | some ("Testnet", .null) => some testnet
  | some ("Mainnet", .null) => some mainnet
  | _ => none

end Network

namespace Credential

def toJson : Credential → Json
  | key hash => .variant "AddrKeyHash" hash.toJson
  | script hash => .variant "ScriptHash" hash.toJson

def ofJson? (j : Json) : Option Credential :=
  match j.variant? with
  | some ("AddrKeyHash", hash) => (Digest.ofJson? hash).map key
  | some ("ScriptHash", hash) => (Digest.ofJson? hash).map script
  | _ => none

end Credential

namespace ChainPointer

def toJson (p : ChainPointer) : Json :=
  .record [("slot", .ofNat p.slot.toNat), ("tx_index", .ofNat p.txIndex.toNat),
    ("cert_index", .ofNat p.certIndex.toNat)]

def ofJson? (j : Json) : Option ChainPointer := do
  let [some slot, some txIndex, some certIndex] ←
    j.fields? ["slot", "tx_index", "cert_index"] | none
  return ⟨← slot.uint64?, ← txIndex.uint64?, ← certIndex.uint64?⟩

end ChainPointer

namespace Delegation

def toJson : Delegation → Json
  | none => .ofText "None"
  | credential stake => .variant "Credential" stake.toJson
  | pointer position => .variant "Pointer" position.toJson

def ofJson? (j : Json) : Option Delegation :=
  match j.variant? with
  | some ("None", .null) => some .none
  | some ("Credential", stake) => (Credential.ofJson? stake).map credential
  | some ("Pointer", position) => (ChainPointer.ofJson? position).map pointer
  | _ => Option.none

end Delegation

namespace StakeAddress

def toJson (a : StakeAddress) : Json :=
  .record [("network", a.network.toJson), ("credential", a.credential.toJson)]

def ofJson? (j : Json) : Option StakeAddress := do
  let [some network, some credential] ← j.fields? ["network", "credential"] | none
  return ⟨← Network.ofJson? network, ← Credential.ofJson? credential⟩

end StakeAddress

namespace Address

/-- The record without the name of its kind. -/
def content : Address → Json
  | .payment network credential delegation =>
    .record [("network", network.toJson), ("payment", credential.toJson),
      ("delegation", delegation.toJson)]
  | .stake address => address.toJson

def paymentOfJson? (j : Json) : Option Address := do
  let [some network, some credential, some delegation] ←
    j.fields? ["network", "payment", "delegation"] | Option.none
  return .payment (← Network.ofJson? network) (← Credential.ofJson? credential)
    (← Delegation.ofJson? delegation)

def kindName : Address → String
  | .payment .. => "Shelley"
  | .stake _ => "Stake"

def toJson (a : Address) : Json := .variant a.kindName a.content

def ofJson? (j : Json) : Option Address :=
  match j.variant? with
  | some ("Shelley", content) => paymentOfJson? content
  | some ("Stake", content) => (StakeAddress.ofJson? content).map .stake
  | _ => Option.none

end Address

end ConwayTx
