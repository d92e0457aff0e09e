import ConwayTx.Address.Text
import ConwayTx.Proofs.Address
import ConwayTx.Proofs.Bech32.Text
import ConwayTx.Proofs.Transaction.Weight

/-!
# Address text read back

No address is too long for text, not even one with a pointer of three full words. Its text names kind
and network, holds its bytes, and is read as the address it was written from (`text_roundTrip`).
-/

namespace ConwayTx.Address

theorem textPrefix_mem (a : Address) :
    a.textPrefix ∈ ["addr", "addr_test", "stake", "stake_test"] := by
  cases a with
  | payment network credential delegation => cases network <;> simp [textPrefix]
  | stake address =>
    obtain ⟨network, credential⟩ := address
    cases network <;> simp [textPrefix]

/-- The prefixes are short, in lower case, and accepted when read. -/
theorem readPrefix?_textPrefix (a : Address) :
    Bech32.readPrefix? a.textPrefix.toList = some a.textPrefix.toList ∧
      a.textPrefix.toList.any Char.isUpper = false ∧ a.textPrefix.toList.length ≤ 10 := by
  have all : ∀ hrp ∈ ["addr", "addr_test", "stake", "stake_test"],
      Bech32.readPrefix? hrp.toList = some hrp.toList ∧
        hrp.toList.any Char.isUpper = false ∧ hrp.toList.length ≤ 10 := by decide
  exact all _ a.textPrefix_mem

theorem exists_toText? (a : Address) : ∃ text, a.toText? = some text := by
  refine ⟨_, Bech32.encode?_eq_some_iff.2 ⟨?_, rfl⟩⟩
  have hrp := (readPrefix?_textPrefix a).2.2
  have symbols := (Bech32.length_toSymbols a.toBytes).2
  have bytes := a.length_toBytes_le
  rw [Bech32.length_characters, Bech32.maxLength]
  omega

theorem text_roundTrip (a : Address) :
    ∃ text, a.toText? = some text ∧ Bech32.decode text = .ok (a.textPrefix, a.toBytes) ∧
      readText text = .ok a := by
  obtain ⟨text, written⟩ := a.exists_toText?
  obtain ⟨readable, lower, _⟩ := readPrefix?_textPrefix a
  have content := Bech32.decode_encode? readable lower written
  refine ⟨text, written, content, ?_⟩
  unfold readText
  rw [content]
  dsimp only
  rw [ofBytes_toBytes]
  rfl

/-- The stake address of the key of CIP-19. -/
example :
    let hash : Bytes := [0x33, 0x7b, 0x62, 0xcf, 0xff, 0x64, 0x03, 0xa0, 0x6a, 0x3a, 0xcb, 0xc3, 0x4f, 0x8c,
      0x46, 0x00, 0x3c, 0x69, 0xfe, 0x79, 0xa3, 0x62, 0x8c, 0xef, 0xa9, 0xc4, 0x72, 0x51]
    toText? (.stake ⟨.mainnet, .key ⟨hash, rfl⟩⟩) =
      some "stake1uyehkck0lajq8gr28t9uxnuvgcqrc6070x3k9r8048z8y5gh6ffgw" := by
  decide +kernel

end ConwayTx.Address
