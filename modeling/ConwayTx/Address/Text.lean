import ConwayTx.InputError

/-!
# Address text

Addresses in Bech32. The prefix names kind and network when writing and is not looked at when
reading.
-/

namespace ConwayTx.Address

def textPrefix : Address → String
  | .payment .mainnet .. => "addr"
  | .payment .testnet .. => "addr_test"
  | .stake ⟨.mainnet, _⟩ => "stake"
  | .stake ⟨.testnet, _⟩ => "stake_test"

def toText? (a : Address) : Option String := Bech32.encode? a.textPrefix a.toBytes

/-- Bech32, or hexadecimal bytes where that is too long. -/
def display (a : Address) : String := a.toText?.getD (Hex.encode a.toBytes)

instance : ToString Address := ⟨Address.display⟩

def readBytes (bytes : Bytes) : Except InputError Address :=
  (ofBytes bytes).mapError fun fault => .malformedAddress (Hex.encode bytes) (.raw fault)

def readText (text : String) : Except InputError Address :=
  match Bech32.decode text with
  | .error fault => .error (.malformedAddress text (.text fault))
  | .ok (_, bytes) => (ofBytes bytes).mapError fun _ => .malformedAddress text .payload

/-- The stake address with this address's stake credential. -/
def stakeAddress (a : Address) : Except InputError StakeAddress :=
  match a.stakeCredential? with
  | some credential => .ok ⟨a.network, credential⟩
  | none => .error (.noStakeCredential a.display)

end ConwayTx.Address
