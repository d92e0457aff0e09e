import ConwayTx.Proofs.Builder.Stages
import ConwayTx.Proofs.Builder.Submission
import ConwayTx.Proofs.Transaction.Integrity

/-!
# Hashes of what stands outside the body

The body of a transaction has a hash of its redeemers and datums and one of its metadata. Both are
taken before the transaction is written, the first one anew in every round. They are those of what
is written in the end, however it was signed (`finalize_sealed`).
-/

namespace ConwayTx

open Outcome

namespace Builder

theorem hashes_of_draft {b : Builder} {network : Network} {params : ProtocolParams}
    {redeemers : PendingRedeemers} {d : Draft} (h : b.draft network params redeemers = .ok d) :
    d.versions = b.versions ∧ d.metadata = b.metadata ∧
      b.metadata.mapM Metadata.hash = .ok d.body.metadataHash := by
  obtain ⟨outputs, _, h⟩ := bind_ok h
  obtain ⟨metadataHash, hashed, h⟩ := bind_ok h
  obtain rfl := pure_ok h
  exact ⟨rfl, rfl, mapError_ok hashed⟩

/-- Of the scripts that are attached and of those that reference inputs carry. -/
theorem mem_versions {b : Builder} {version : PlutusVersion} :
    version ∈ b.versions.keys ↔
      (∃ script ∈ b.scripts, script.version? = some version) ∨
        ∃ u ∈ b.referenceInputs, ∃ script ∈ u.output.script, script.version? = some version := by
  rw [SortedMap.mem_keys, versions, SortedMap.contains_ofKeys, List.filterMap_append,
    List.mem_append, List.mem_filterMap, List.mem_filterMap]
  refine or_congr_right ⟨?_, ?_⟩
  · rintro ⟨script, mem, same⟩
    obtain ⟨u, referenced, carried⟩ := List.mem_filterMap.1 mem
    exact ⟨u, referenced, script, carried, same⟩
  · rintro ⟨u, referenced, script, carried, same⟩
    exact ⟨script, List.mem_filterMap.2 ⟨u, referenced, carried⟩, same⟩

variable {b : Builder} {chain : Chain} {tx : Transaction}

theorem finalize_hashed (h : (b.finalize chain).1 = .ok tx) :
    ∃ params, chain.params = .ok params ∧ tx.Hashed b.versions params.costModels ∧
      tx.metadata = b.metadata := by
  obtain ⟨balanced, _, built, rfl, _⟩ := finalize_ok h
  obtain ⟨t⟩ := build_ok built
  obtain ⟨inputs, change, charged, assembled⟩ := Balancer.balance_assembles t.balances
  obtain ⟨versions, metadata, hashed⟩ := hashes_of_draft t.drafted
  have scripts := Draft.scriptDataHash_of_assemble assembled
  obtain ⟨body, _, _, carried, _⟩ := Draft.assemble_ok assembled
  refine ⟨t.ground.params, t.params, ⟨?_, ?_⟩, carried.trans metadata⟩
  · rw [← versions]
    exact scripts
  · rw [carried, metadata, hashed, body, t.body_eq]

/-- Metadata that a builder has taken can be written, and so can what it finalizes to, whatever is
done to it later. The hashes are those of what is written then: of the redeemers and datums in its
witness set, with the cost models of the languages of attached and referenced scripts, and of its
fourth item. -/
theorem finalize_sealed (reachable : Reachable b) :
    (∀ m next, b.setMetadata m = .ok next →
      next.metadata = some m ∧ ∃ item, m.toCbor = .ok item) ∧
    (∀ label datum next, b.addMetadata label datum = .ok next →
      ∃ m item, next.metadata = some m ∧ m.find? label = some datum ∧ m.toCbor = .ok item) ∧
    (∀ version, version ∈ b.versions.keys ↔
      (∃ script ∈ b.scripts, script.version? = some version) ∨
        ∃ u ∈ b.referenceInputs, ∃ script ∈ u.output.script, script.version? = some version) ∧
    ∀ chain tx later, (b.finalize chain).1 = .ok tx →
      let last := (b.finalize chain).2.replay later
      ∃ params signed bytes, chain.params = .ok params ∧ last.tx = .ok signed ∧
        tx.SignedAs signed ∧ last.encodeTx = .ok bytes ∧
        signed.Sealed b.versions params.costModels bytes ∧
        signed.body.metadataHash.isSome = b.metadata.isSome := by
  refine ⟨?_, ?_, fun version => mem_versions, ?_⟩
  · intro m next h
    obtain ⟨within, rfl⟩ := setMetadata_ok h
    exact ⟨rfl, within.exists_toCbor⟩
  · intro label datum next h
    have after : Reachable next := by
      have stepped := reachable.step (FixedChain.toChain {}) (.edit (.addMetadata label datum))
      rwa [step, Edit.apply, h] at stepped
    obtain ⟨_, rfl⟩ := addMetadata_ok h
    obtain ⟨item, written⟩ := (after.withinLimits _ rfl).exists_toCbor
    refine ⟨_, item, rfl, ?_, written⟩
    rw [SortedMap.find?_insert, if_pos rfl]
  · intro chain tx later h last
    obtain ⟨params, fetched, hashed, carried⟩ := finalize_hashed h
    obtain ⟨size, measured⟩ := finalize_measured reachable h
    obtain ⟨balanced, _, _, rfl, final⟩ := finalize_ok h
    obtain ⟨signed, stage, signs⟩ := replay_finalized
      (show (b.finalize chain).2.stage = .finalized balanced.tx balanced.inputs by rw [final])
      later
    have there : last.tx = .ok signed := by rw [Builder.tx, stage]
    obtain ⟨added, rfl, _⟩ := id signs
    obtain ⟨bytes, written⟩ :=
      Transaction.encode_withKeys measured (balanced.tx.witnesses.keys ++ added)
    refine ⟨params, _, bytes, fetched, there, signs, ?_, (hashed.withKeys _).sealed written, ?_⟩
    · rw [encodeTx, there]
      exact congrArg (Except.mapError _) written
    · rw [← carried]
      exact isSome_of_mapM_ok hashed.metadata

theorem finalize_sealed_signed :
    let address : Address := .enterprise .testnet (.key .zero)
    let carried : TxOutput :=
      { address, value := .ofCoin 3000000, script := some (.plutus ⟨.v2, [4]⟩) }
    let c : FixedChain := {
      params := { costModels := .ofList [(.v1, [3]), (.v2, [1, -2])] }
      utxos := [⟨⟨.zero, 0⟩, { address, value := .ofCoin 20000000 }⟩] }
    let b := run c.toChain {} [
      .edit .disableEstimation, .edit (.setChangeAddress address), .edit (.addInputAddress address),
      .edit (.attachScript (.plutus ⟨.v2, [1, 2, 3]⟩)), .edit (.attachDatum (.integer 7)),
      .edit (.addReferenceInput ⟨⟨.zero, 2⟩, carried⟩),
      .edit (.collectFrom
        ⟨⟨.zero, 1⟩, { address := .enterprise .testnet (.script .zero), value := .ofCoin 20000000 }⟩
        ⟨.integer 1, ⟨1000, 1000⟩⟩),
      .edit (.setMetadata (.ofList [(1, .text "a")])), .edit (.addMetadata 2 (.list [.int (-5)]))]
    let last := (b.finalize c.toChain).2.replay [(c.toChain, .edit (.addKeyWitness .placeholder))]
    ∃ signed bytes witnesses views fourth integrity, last.tx = .ok signed ∧
      last.encodeTx = .ok bytes ∧
      Cbor.elementOfArray? 1 bytes = some witnesses ∧
      Cbor.fieldOfMap? 5 witnesses = some
        [0xa1, 0x82, 0x00, 0x00, 0x82, 0x01, 0x82, 0x19, 0x03, 0xe8, 0x19, 0x03, 0xe8] ∧
      Cbor.fieldOfMap? 4 witnesses = some [0x81, 0x07] ∧
      ScriptIntegrity.AreViews (.ofKeys [.v2]) c.params.costModels views ∧
      signed.body.scriptDataHash = some (blake2b256 (ScriptIntegrity.bound witnesses views)) ∧
      ScriptIntegrity.bytes signed.witnesses.redeemers signed.witnesses.datums (.ofKeys [.v2])
        c.params.costModels = .ok integrity ∧
      signed.body.scriptDataHash = some (blake2b256 integrity) ∧
      Cbor.elementOfArray? 3 bytes = some fourth ∧
      signed.body.metadataHash = some (blake2b256 fourth) := by
  intro address carried c b last
  obtain ⟨tx, done⟩ := ok_of_isSome
    (show (b.finalize c.toChain).1.toOption.isSome = true by decide +kernel)
  have reachable : Reachable b := Reachable.fresh.run c.toChain _
  obtain ⟨params, signed, bytes, fetched, there, _, written, sealed, labelled⟩ :=
    (finalize_sealed reachable).2.2.2 c.toChain tx
      [(c.toChain, .edit (.addKeyWitness .placeholder))] done
  obtain rfl : c.params = params := Except.ok.inj fetched
  replace there : last.tx = .ok signed := there
  replace written : last.encodeTx = .ok bytes := written
  have length : last.encodeTx.toOption.all (·.length < UInt64.size) = true := by decide +kernel
  have fields : (last.encodeTx.toOption.bind (Cbor.elementOfArray? 1)).map
      (fun witnesses => (Cbor.fieldOfMap? 5 witnesses, Cbor.fieldOfMap? 4 witnesses)) = some
        (some [0xa1, 0x82, 0x00, 0x00, 0x82, 0x01, 0x82, 0x19, 0x03, 0xe8, 0x19, 0x03, 0xe8],
          some [0x81, 0x07]) := by
    decide +kernel
  rw [written] at length fields
  have short : bytes.length < UInt64.size := of_decide_eq_true length
  obtain ⟨witnesses, second, bound, views⟩ := sealed.second short
  change (Cbor.elementOfArray? 1 bytes).map _ = _ at fields
  rw [second] at fields
  obtain ⟨redeemers, datums⟩ := Prod.mk.inj (Option.some.inj fields)
  rw [redeemers, datums] at bound
  obtain ⟨hash, given⟩ := Option.isSome_iff_exists.1 bound
  obtain ⟨⟨views, areViews⟩, opened⟩ := views hash given
  obtain ⟨integrity, recomputed, closed⟩ := sealed.scripts hash given
  obtain ⟨body, fourth, _, read, hashed⟩ := sealed.fourth
  obtain ⟨hash', given'⟩ := Option.isSome_iff_exists.1 (labelled.trans
    (show b.metadata.isSome = true by decide +kernel))
  have versions : b.versions = .ofKeys [.v2] := SortedMap.ext (by decide +kernel)
  rw [versions] at recomputed opened areViews
  refine ⟨signed, bytes, witnesses, views, fourth.encode, integrity, there, written, second,
    redeemers, datums, areViews, ?_, recomputed, ?_, read short, ?_⟩
  · rw [given, opened views areViews]
  · rw [given, closed]
  · rw [given', hashed hash' given']

end Builder

end ConwayTx
