import ConwayTx.Proofs.Builder.Placement
import ConwayTx.Proofs.Transaction.Framing

/-!
# Submitted transactions

A fixed chain finds the body in the bytes of any transaction, answers with the transaction's
identifier and records the bytes (`submit_encode`). So a finalized builder, however it was signed,
submits what it says it does.
-/

namespace ConwayTx

open Outcome

/-- Only the length of the body matters, which its own header states. -/
theorem FixedChain.txId?_encode {t : Transaction} {bytes : Bytes} {body : Cbor}
    (h : t.encode = .ok bytes) (encodes : t.body.toCbor = .ok body)
    (short : body.length < UInt64.size) : txId? bytes = some (blake2b256 body.encode) := by
  obtain ⟨item, metadata, same, _, rfl⟩ := Transaction.encode_ok h
  cases encodes.symm.trans same
  have header : Cbor.header? (Cbor.array [body, t.witnesses.toCbor, .bool t.isValid,
      .option metadata]).encode = some (⟨4, some 4⟩, body.encode ++ Cbor.encodeAll
        [t.witnesses.toCbor, .bool t.isValid, .option metadata]) :=
    @Cbor.header?_opening 4 (some 4) (by decide) (by rintro _ ⟨⟩; decide) _
  rw [txId?, Cbor.firstOfArray?_append header (Cbor.wellFormed_encode body short)]
  rfl

theorem TxBody.hash_of_toCbor {b : TxBody} {body : Cbor} (encodes : b.toCbor = .ok body) :
    b.hash = .ok (blake2b256 body.encode) := by
  rw [hash, encode, encodes]
  rfl

theorem FixedChain.submit_encode {t : Transaction} {bytes : Bytes} {body : Cbor} (c : FixedChain)
    (h : t.encode = .ok bytes) (encodes : t.body.toCbor = .ok body)
    (short : body.length < UInt64.size) :
    c.submit bytes =
      (.ok (blake2b256 body.encode), { c with submitted := c.submitted ++ [bytes] }) := by
  rw [submit, txId?_encode h encodes short]

/-- Keys make no difference to whether a transaction encodes. -/
theorem Transaction.encode_withKeys {t : Transaction} {size : Nat} (h : t.size = .ok size)
    (keys : List KeyWitness) : ∃ bytes, (t.withKeys keys).encode = .ok bytes := by
  obtain ⟨body, metadata, bodyOk, metadataOk, _⟩ := size_ok h
  have encodes : (t.withKeys keys).body.toCbor = .ok body := bodyOk
  have labelled : (t.withKeys keys).metadata.mapM Metadata.toCbor = .ok metadata := metadataOk
  refine ⟨(Cbor.array [body, (t.withKeys keys).witnesses.toCbor, .bool t.isValid,
    .option metadata]).encode, ?_⟩
  rw [encode, toCbor, encodes, labelled]
  rfl

namespace Builder

theorem submit_of_encodeTx {σ : Type} {b : Builder} {bytes : Bytes} (stated : b.encodeTx = .ok bytes)
    (handIn : σ → Bytes → Except String TxId × σ) (chain : σ) :
    b.submit handIn chain =
      (ChainTask.submit.ask (handIn chain bytes).1, (handIn chain bytes).2) := by
  rw [submit, stated]

theorem finalize_measured {b : Builder} {chain : Chain} {tx : Transaction} (reachable : Reachable b)
    (h : (b.finalize chain).1 = .ok tx) : ∃ size, (tx.withKeys []).size = .ok size := by
  obtain ⟨balanced, _, built, rfl, _⟩ := finalize_ok h
  obtain ⟨t⟩ := build_ok built
  obtain ⟨terms, fee, demand, change, r, of, ran, accepted, rfl, _, _⟩ :=
    t.accepted reachable.nodup_preselected
  obtain ⟨size, measured, _⟩ := measured_of_ran ran accepted
  exact ⟨size, measured⟩

/-- Signatures leave the identifier, and the transaction still encodes. -/
theorem finalize_signed {b : Builder} {chain : Chain} {tx : Transaction} {edits : List Edit}
    (later : Chain) (reachable : Reachable b) (h : (b.finalize chain).1 = .ok tx)
    (signing : ∀ e ∈ edits, e.IsSigning) :
    ∃ signed body bytes, (run later (b.finalize chain).2 (edits.map .edit)).tx = .ok signed ∧
      signed.body.toCbor = .ok body ∧ body.length < UInt64.size ∧ signed.encode = .ok bytes := by
  obtain ⟨body, _, encodes, short, _⟩ := finalize_assigns reachable h
  obtain ⟨size, measured⟩ := finalize_measured reachable h
  obtain ⟨balanced, _, _, rfl, final⟩ := finalize_ok h
  obtain ⟨keys, stage⟩ := stage_run_signing later
    (show ((b.finalize chain).2).stage = .finalized balanced.tx balanced.inputs by rw [final])
    signing
  obtain ⟨bytes, written⟩ := Transaction.encode_withKeys measured keys
  refine ⟨balanced.tx.withKeys keys, body, bytes, ?_, encodes, short, written⟩
  rw [Builder.tx, stage]

end Builder

open Builder in
/-- The encoder and a fixed chain agree. The bytes of a transaction are one well-formed item, framed as
four, and the chain answers with the transaction's own identifier and records the bytes. A builder that
was finalized, and signed any number of times, hands in the bytes that it states: the chain, whatever
was handed in to it before, answers with the identifier that the builder states and has recorded just
these bytes. Headers state lengths in a word. -/
theorem FixedChain.submission_agrees (c : FixedChain) :
    (∀ (tx : Transaction) (bytes : Bytes), tx.encode = .ok bytes → bytes.length < UInt64.size →
      Cbor.WellFormed bytes ∧
        (∃ body witnesses validity metadata, tx.Framed bytes body witnesses validity metadata) ∧
        ∃ id, tx.hash = .ok id ∧
          c.submit bytes = (.ok id, { c with submitted := c.submitted ++ [bytes] })) ∧
    ∀ (b : Builder) (tx : Transaction) (later : Chain) (edits : List Edit), Reachable b →
      (b.finalize c.toChain).1 = .ok tx → (∀ e ∈ edits, e.IsSigning) →
      let signed := run later (b.finalize c.toChain).2 (edits.map .edit)
      ∃ id bytes, signed.txHash = .ok id ∧ signed.encodeTx = .ok bytes ∧
        ∀ earlier : List Bytes,
          signed.submit FixedChain.submit { c with submitted := earlier } =
            (.ok id, { c with submitted := earlier ++ [bytes] }) := by
  constructor
  · intro tx bytes h short
    obtain ⟨body, metadata, encodes, _, same⟩ := Transaction.encode_ok h
    have within : body.length < UInt64.size := by
      rw [same] at short
      exact (Cbor.length_le_of_mem_array List.mem_cons_self).trans_lt short
    refine ⟨?_, Transaction.framed_encode h short, _, TxBody.hash_of_toCbor encodes,
      c.submit_encode h encodes within⟩
    rw [same] at short ⊢
    exact Cbor.wellFormed_encode _ short
  · intro b tx later edits reachable h signing signed
    obtain ⟨final, body, bytes, there, encodes, short, written⟩ :=
      finalize_signed later reachable h signing
    have stated : signed.encodeTx = .ok bytes := by
      rw [encodeTx, there]
      exact congrArg (Except.mapError _) written
    refine ⟨blake2b256 body.encode, bytes, ?_, stated, fun earlier => ?_⟩
    · rw [txHash, there]
      exact congrArg (Except.mapError _) (TxBody.hash_of_toCbor encodes)
    · rw [submit_of_encodeTx stated, FixedChain.submit_encode _ written encodes short]
      rfl

open Builder in
/-- A signed transaction that is handed in twice, to a chain that has seen another one. -/
theorem FixedChain.submission_agrees_signed :
    let address : Address := .enterprise .testnet (.key .zero)
    let c : FixedChain := { utxos := [⟨⟨.zero, 0⟩, { address, value := .ofCoin 10000000 }⟩] }
    let b := run c.toChain {} [
      .edit (.addInputAddress address), .edit (.setChangeAddress address), .edit (.setTtl 5),
      .edit (.addPayment { address, lovelace := 2000000, datum := some (.inline (.integer 7)) })]
    let signed := run c.toChain (b.finalize c.toChain).2 [.edit (.addKeyWitness .placeholder)]
    ∃ tx id bytes, signed.tx = .ok tx ∧ tx.body.fieldCount = 5 ∧ tx.witnesses.fieldCount = 1 ∧
      signed.encodeTx = .ok bytes ∧ bytes.length < UInt64.size ∧ Cbor.WellFormed bytes ∧
      tx.hash = .ok id ∧ c.submit bytes = (.ok id, { c with submitted := [bytes] }) ∧
      signed.submit FixedChain.submit { c with submitted := [[0x80], bytes] } =
        (.ok id, { c with submitted := [[0x80], bytes, bytes] }) := by
  intro address c b signed
  obtain ⟨tx, done⟩ := ok_of_isSome
    (show (b.finalize c.toChain).1.toOption.isSome = true by decide +kernel)
  obtain ⟨final, there⟩ := ok_of_isSome (show signed.tx.toOption.isSome = true by decide +kernel)
  have signing : ∀ e ∈ [Edit.addKeyWitness .placeholder], e.IsSigning := by
    simp [Edit.IsSigning]
  obtain ⟨id, bytes, hashed, written, submitted⟩ :=
    c.submission_agrees.2 b tx c.toChain _ (Reachable.fresh.run c.toChain _) done signing
  have counts : signed.tx.toOption.map
      (fun tx => (tx.body.fieldCount, tx.witnesses.fieldCount)) = some (5, 1) := by decide +kernel
  have length : signed.encodeTx.toOption.all (·.length < UInt64.size) = true := by decide +kernel
  rw [there] at counts
  have written' : signed.encodeTx = .ok bytes := written
  rw [written'] at length
  have short : bytes.length < UInt64.size := of_decide_eq_true length
  have encodes : final.encode = .ok bytes := by
    rw [encodeTx, there] at written'
    exact mapError_ok written'
  obtain ⟨whole, _, id', hash, recorded⟩ := c.submission_agrees.1 final bytes encodes short
  obtain ⟨body, witness⟩ := Prod.mk.inj (Option.some.inj counts)
  obtain rfl : id' = id := by
    have stated : signed.txHash = .ok id := hashed
    rw [txHash, there] at stated
    exact Except.ok.inj (hash.symm.trans (mapError_ok stated))
  exact ⟨final, id', bytes, there, body, witness, written, short, whole, hash, recorded,
    submitted [[0x80], bytes]⟩

end ConwayTx
