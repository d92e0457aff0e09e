import ConwayTx.Address
import ConwayTx.Redeemer
import ConwayTx.TxIn

/-!
# What a redeemer acts on

Until the containers of a body are settled, a redeemer is keyed by the output, policy or credential
it unlocks.
-/

namespace ConwayTx

inductive RedeemerTarget where
  | spend (ref : TxIn)
  | mint (policy : PolicyId)
  | reward (credential : Credential)
deriving DecidableEq

namespace RedeemerTarget

def tag : RedeemerTarget → RedeemerTag
  | spend _ => .spend
  | mint _ => .mint
  | reward _ => .reward

def display : RedeemerTarget → String
  | spend ref => s!"spend {ref}"
  | mint policy => s!"mint {policy}"
  | reward credential => s!"reward {credential.hash}"

/-- Outputs come first, then policies, then credentials. -/
def sortKey : RedeemerTarget → Bytes
  | spend ref => 0 :: ref.txId.bytes ++ Bytes.bigEndian 4 ref.index.toNat
  | mint policy => 1 :: policy.bytes
  | reward credential => 2 :: credential.sortKey

theorem bigEndian_index_inj {a b : UInt32}
    (h : Bytes.bigEndian 4 a.toNat = Bytes.bigEndian 4 b.toNat) : a = b := by
  have fits (c : UInt32) : c.toNat % Bytes.capacity 4 = c.toNat := Nat.mod_eq_of_lt c.toNat_lt_size
  have values := congrArg Bytes.ofBigEndian h
  rw [Bytes.ofBigEndian_bigEndian, Bytes.ofBigEndian_bigEndian, fits, fits] at values
  exact UInt32.toNat_inj.1 values

theorem sortKey_inj {a b : RedeemerTarget} (h : a.sortKey = b.sortKey) : a = b := by
  cases a with
  | spend r =>
    cases b with
    | spend s =>
      have parts := List.append_inj (List.cons.inj h).2 (by rw [r.txId.length_eq, s.txId.length_eq])
      exact congrArg spend (TxIn.ext (Digest.ext parts.1) (bigEndian_index_inj parts.2))
    | mint q => exact absurd (List.cons.inj h).1 (by decide)
    | reward d => exact absurd (List.cons.inj h).1 (by decide)
  | mint p =>
    cases b with
    | spend s => exact absurd (List.cons.inj h).1 (by decide)
    | mint q => exact congrArg mint (Digest.ext (List.cons.inj h).2)
    | reward d => exact absurd (List.cons.inj h).1 (by decide)
  | reward c =>
    cases b with
    | spend s => exact absurd (List.cons.inj h).1 (by decide)
    | mint q => exact absurd (List.cons.inj h).1 (by decide)
    | reward d => exact congrArg reward (Credential.sortKey_inj (List.cons.inj h).2)

instance : Ord RedeemerTarget := ⟨compareOn sortKey⟩

instance : Std.TransOrd RedeemerTarget := inferInstanceAs (Std.TransCmp (compareOn sortKey))

instance : Std.LawfulEqOrd RedeemerTarget where
  eq_of_compare h := sortKey_inj (Bytes.eq_of_compare h)

end RedeemerTarget

abbrev PendingRedeemers := SortedMap RedeemerTarget Redeemer

end ConwayTx
