import ConwayTx.Chain.Fixed
import ConwayTx.Proofs.Balance.Conservation
import ConwayTx.Proofs.Builder.Build

/-!
# Conservation by the builder

A finalized transaction moves all it takes in, and takes in only outputs that were supplied
(`finalize_balances`).
-/

namespace ConwayTx.Builder

/-- The encoded inputs are those the builder lists, in the order it lists them. -/
theorem keys_inputs {inputs : List Utxo} (distinct : (inputs.map Utxo.ref).Nodup) :
    (SortedMap.ofKeys (inputs.map Utxo.ref)).keys =
      (inputs.mergeSort fun u v => (compare u.ref v.ref).isLE).map Utxo.ref := by
  let sorted := inputs.mergeSort fun u v => (compare u.ref v.ref).isLE
  have perm : sorted.Perm inputs := List.mergeSort_perm _ _
  have weakly : sorted.Pairwise fun u v => (compare u.ref v.ref).isLE :=
    List.pairwise_mergeSort (fun _ _ _ => Std.TransCmp.isLE_trans)
      (fun u v => SortedMap.isLE_or_isLE compare u.ref v.ref) inputs
  have apart : sorted.Pairwise fun u v => u.ref ≠ v.ref :=
    List.pairwise_map.1 ((perm.map Utxo.ref).nodup_iff.2 distinct)
  refine SortedMap.eq_of_increasing (SortedMap.keys_increasing _) ?_
    ((SortedMap.keys_ofKeys_perm distinct).trans (perm.map Utxo.ref).symm)
  refine List.pairwise_map.2 ((weakly.and apart).imp ?_)
  rintro u v ⟨below, other⟩
  cases order : compare u.ref v.ref with
  | lt => rfl
  | eq => exact absurd (Std.LawfulEqCmp.eq_of_compare order) other
  | gt =>
    rw [order] at below
    cases below

/-- Whatever path the build took, what the listed inputs hold with all mints, withdrawals and
refunds is what the outputs, the fee, burns and deposits take. -/
theorem finalize_balances {b : Builder} {chain : Chain} {tx : Transaction} (reachable : Reachable b)
    (sound : ∀ u, b.Supplies chain u → u.value.NoNegative) (h : (b.finalize chain).1 = .ok tx) :
    ∃ params inputs, chain.params = .ok params ∧ (b.finalize chain).2.sortedInputs = .ok inputs ∧
      tx.body.inputs.keys = inputs.map Utxo.ref ∧ (∀ u ∈ inputs, b.Supplies chain u) ∧
      tx.body.Balances params inputs := by
  obtain ⟨balanced, _, built, rfl, after⟩ := finalize_ok h
  obtain ⟨t⟩ := build_ok built
  obtain ⟨terms, fee, demand, change, r, of, ran, _, rfl, distinct, supplied⟩ :=
    t.accepted reachable.nodup_preselected
  have order : (r.inputs.mergeSort fun u v => (compare u.ref v.ref).isLE).Perm r.inputs :=
    List.mergeSort_perm _ _
  refine ⟨t.ground.params, _, t.params, by rw [after]; rfl, ?_, fun u mem =>
    supplied u (order.subset mem), ?_⟩
  · obtain ⟨empty, _⟩ := draft_ok t.drafted
    have inputs := congrArg TxBody.inputs t.body_eq
    have body := congrArg TxBody.inputs (Draft.assemble_ok ran.assembled).1
    rw [of.same] at body
    rw [body]
    show (t.body.inputs.addKeys (r.inputs.map Utxo.ref)).keys = _
    rw [inputs]
    show (t.draft.body.inputs.addKeys (r.inputs.map Utxo.ref)).keys = _
    rw [empty]
    exact keys_inputs distinct
  · have balances := ran.balances of fun u mem => sound u (supplied u mem)
    rw [TxBody.Balances, Utxo.held_perm order]
    exact balances

/-- One output is pulled, for the change only. All kinds of flow are there: a mint and a burn, a
withdrawal, a refund and a deposit, and change that is split since its assets do not fit together. -/
theorem finalize_balances_with_assets :
    let address : Address := .enterprise .testnet (.key .zero)
    let policy := "00000000000000000000000000000000000000000000000000000000"
    let old : AssetName := ⟨[1], by decide⟩
    let fresh : AssetName := ⟨[2, 2, 2, 2, 2, 2, 2, 2, 2], by decide⟩
    let value := (Value.ofCoin 4000000).addAsset .zero old 7
    let c : FixedChain := {
      params := { maxValueSize := 50 }
      utxos := [⟨⟨.zero, 1⟩, { address, value := .ofCoin 3500000 }⟩] }
    let b := run c.toChain {} [
      .edit (.addInput ⟨⟨.zero, 0⟩, { address, value }⟩), .edit (.addInputAddress address),
      .edit (.setChangeAddress address), .edit (.addPayment { address, lovelace := 2200000 }),
      .edit (.mintAssets ⟨policy, "01", -2⟩), .edit (.mintAssets ⟨policy, "020202020202020202", 5⟩),
      .edit (.addWithdrawal (.stake ⟨.testnet, .key .zero⟩) 300000 none),
      .edit (.addCertificate (.stakeDeregistration (.key .zero))),
      .edit (.addCertificate (.registration (.script .zero)))]
    ∃ tx inputs, (b.finalize c.toChain).1 = .ok tx ∧
      (b.finalize c.toChain).2.sortedInputs = .ok inputs ∧
      inputs.length = 2 ∧ tx.body.outputs.length = 3 ∧
      tx.body.minted.2 (.zero, fresh) = 5 ∧ tx.body.burned.2 (.zero, old) = 2 ∧
      tx.body.withdrawn.1 = 300000 ∧ (tx.body.refunded c.params).1 = 2000000 ∧
      (tx.body.deposited c.params).1 = 2000000 ∧ tx.body.Balances c.params inputs := by
  intro address policy old fresh value c b
  obtain ⟨tx, done⟩ := Outcome.ok_of_isSome
    (show (b.finalize c.toChain).1.toOption.isSome = true by decide +kernel)
  have sound : ∀ u, b.Supplies c.toChain u → u.value.NoNegative := by
    have given : ∀ u ∈ b.preselected ++ b.loadedUtxos, u.value.NoNegative := by decide +kernel
    have held : ∀ u ∈ c.utxos, u.value.NoNegative := by decide +kernel
    rintro u (preselected | loaded | ⟨_, _, _, fetched, mem⟩)
    · exact given u (List.mem_append_left _ preselected)
    · exact given u (List.mem_append_right _ loaded)
    · obtain rfl := Except.ok.inj fetched
      exact held u (List.mem_of_mem_filter mem)
  obtain ⟨params, inputs, fetched, listed, keys, _, balances⟩ :=
    finalize_balances (Reachable.fresh.run c.toChain _) sound done
  obtain rfl : c.params = params := Except.ok.inj fetched
  have flows : (b.finalize c.toChain).1.toOption.map (fun tx =>
      ((tx.body.inputs.keys.length, tx.body.outputs.length),
        (tx.body.minted.2 (.zero, fresh), tx.body.burned.2 (.zero, old)), tx.body.withdrawn.1,
        (tx.body.refunded c.params).1, (tx.body.deposited c.params).1)) =
      some ((2, 3), (5, 2), 300000, 2000000, 2000000) := by
    decide +kernel
  rw [done] at flows
  simp only [Except.toOption, Option.map_some, Option.some.injEq, Prod.mk.injEq] at flows
  obtain ⟨⟨two, three⟩, ⟨minted, burned⟩, withdrawn, refunded, deposited⟩ := flows
  rw [keys, List.length_map] at two
  exact ⟨tx, inputs, done, listed, two, three, minted, burned, withdrawn, refunded, deposited,
    balances⟩

end ConwayTx.Builder
