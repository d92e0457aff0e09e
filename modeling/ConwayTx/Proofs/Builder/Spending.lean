import ConwayTx.Chain.Fixed
import ConwayTx.Proofs.Builder.Conservation

/-!
# What a finalized transaction spends

Inputs are listed once each, in the order of the encoded body, and all preselected outputs are among
them. What is added to those comes out of the pool, past the reference inputs, and what balancing
adds also past the collateral (`finalize_spends`).
-/

namespace ConwayTx.Builder

open Outcome

/-- The inputs that balancing starts from. -/
def selection (b : Builder) (chain : Chain) : Except Failure (List Utxo) := do
  let ground ← b.ground chain
  let redeemers ← b.settledRedeemers chain ground
  let draft ← b.draft chain.network ground.params redeemers
  let maxFee ← ChainTask.fetchMaxFee.ask chain.maxTxFee
  b.selectInputs draft ground maxFee

theorem preselected_subset_selectInputs {b : Builder} {draft : Draft} {ground : Ground}
    {maxFee : Amount} {inputs : List Utxo} (h : b.selectInputs draft ground maxFee = .ok inputs) :
    b.preselected ⊆ inputs := by
  obtain ⟨extra, _, h⟩ := bind_ok h
  obtain ⟨committed, _, h⟩ := bind_ok h
  obtain ⟨demand, _, h⟩ := bind_ok h
  obtain ⟨required, _, h⟩ := bind_ok h
  obtain ⟨picks, _, h⟩ := bind_ok h
  rw [← pure_ok h]
  exact List.subset_append_left _ _

variable {b : Builder} {chain : Chain} {balanced : Balanced}

theorem Trace.selection (t : Trace b chain balanced) : b.selection chain = .ok t.selected := by
  simp only [Builder.selection, ChainTask.ask, t.grounded, t.settled, t.drafted, t.bounded, t.selects,
    liftM, monadLift, MonadLift.monadLift, Except.mapError, bind, Except.bind]

/-- Balancing keeps the selection, and adds outputs of the pool that are not collateral. -/
theorem Trace.spends (t : Trace b chain balanced) (given : (b.preselected.map Utxo.ref).Nodup) :
    (balanced.inputs.map Utxo.ref).Nodup ∧ t.selected ⊆ balanced.inputs ∧
      ∀ u ∈ balanced.inputs, u ∈ t.selected ∨
        u ∈ t.ground.pool ∧ balanced.tx.body.collateral.contains u.ref = false := by
  obtain ⟨distinct, _⟩ := t.pool
  obtain ⟨refs, _⟩ := selectInputs_ok t.selects given distinct
  have pool : (b.balancer t.ground t.body.collateral).pool.Sublist t.ground.pool :=
    List.filter_sublist
  obtain ⟨_, _, _, _, r, _, _, _, rfl, inputs, grown, within⟩ :=
    Balancer.balance_ok t.balances refs (distinct.sublist (pool.map _))
  rw [t.carries.2]
  refine ⟨inputs, grown, fun u mem => ?_⟩
  rcases List.mem_append.1 (within mem) with first | later
  · exact .inl first
  · exact .inr (Selection.mem_unused.1 later)

/-- The encoded inputs are the listed ones, in their order. -/
theorem Trace.keys_inputs (t : Trace b chain balanced)
    (given : (b.preselected.map Utxo.ref).Nodup) :
    balanced.tx.body.inputs.keys =
      (balanced.inputs.mergeSort fun u v => (compare u.ref v.ref).isLE).map Utxo.ref := by
  obtain ⟨terms, _, _, _, r, of, ran, _, rfl, distinct, _⟩ := t.accepted given
  have none : t.body.inputs = ∅ := by
    rw [t.body_eq]
    exact (draft_ok t.drafted).1
  rw [(Draft.assemble_ok ran.assembled).1, of.same]
  show (t.body.inputs.addKeys (r.inputs.map Utxo.ref)).keys = _
  rw [none]
  exact Builder.keys_inputs distinct

/-- Listed inputs are the encoded ones, without repetition, and all that was preselected is spent.
Any other input comes from the pool, so it was loaded or fetched, and it is no reference input; one
that the selection did not have yet is no collateral either. -/
theorem finalize_spends {tx : Transaction} (reachable : Reachable b)
    (h : (b.finalize chain).1 = .ok tx) :
    ∃ pool selected inputs, b.loadPool chain = .ok pool ∧ b.selection chain = .ok selected ∧
      (b.finalize chain).2.sortedInputs = .ok inputs ∧ (inputs.map Utxo.ref).Nodup ∧
      tx.body.inputs.keys = inputs.map Utxo.ref ∧
      tx.body.referenceInputs = .ofKeys (b.referenceInputs.map Utxo.ref) ∧
      b.preselected ⊆ selected ∧ selected ⊆ inputs ∧
      ∀ u ∈ inputs, u ∉ b.preselected →
        u ∈ pool ∧ b.Offers chain u ∧ tx.body.referenceInputs.contains u.ref = false ∧
          (u ∉ selected → tx.body.collateral.contains u.ref = false) := by
  obtain ⟨balanced, _, built, rfl, after⟩ := finalize_ok h
  obtain ⟨t⟩ := build_ok built
  obtain ⟨⟨_, _, _, references⟩, _⟩ := t.carries
  obtain ⟨distinct, kept, added⟩ := t.spends reachable.nodup_preselected
  obtain ⟨_, chosen⟩ := selectInputs_ok t.selects reachable.nodup_preselected t.pool.1
  have loaded := (ground_ok t.grounded).2.2
  have order : (balanced.inputs.mergeSort fun u v => (compare u.ref v.ref).isLE).Perm
      balanced.inputs := List.mergeSort_perm _ _
  refine ⟨t.ground.pool, t.selected, _, loaded, t.selection, by rw [after]; rfl,
    (order.map Utxo.ref).nodup_iff.2 distinct, t.keys_inputs reachable.nodup_preselected, references,
    preselected_subset_selectInputs t.selects, fun u mem => order.symm.subset (kept mem), ?_⟩
  intro u mem other
  have source := added u (order.subset mem)
  have pooled : u ∈ t.ground.pool := by
    rcases source with selected | ⟨pooled, _⟩
    · exact (chosen u selected).resolve_left other
    · exact pooled
  obtain ⟨offered, apart⟩ := mem_loadPool loaded pooled
  refine ⟨pooled, offered, ?_, fun late => (source.resolve_left late).2⟩
  rw [references, Bool.eq_false_iff, ne_eq, SortedMap.contains_ofKeys]
  intro listed
  obtain ⟨r, mem, same⟩ := List.mem_map.1 listed
  exact apart r mem same

theorem finalize_spends_repeated :
    let address : Address := .enterprise .testnet (.key .zero)
    let holding (index : UInt32) (coin : Amount) : Utxo :=
      ⟨⟨.zero, index⟩, { address, value := .ofCoin coin }⟩
    let chain := FixedChain.toChain { utxos := [holding 0 2000000, holding 0 2000000] }
    let b := run chain {} [
      .edit .disableEstimation, .edit (.addInputAddress address), .edit (.setChangeAddress address),
      .edit (.loadUtxos [holding 5 8000000, holding 0 2000000]),
      .edit (.addReferenceInput (holding 5 8000000)), .edit (.addCollateral (holding 3 5000000)),
      .edit (.collectFrom
        ⟨⟨.zero, 1⟩, { address := .enterprise .testnet (.script .zero), value := .ofCoin 2900000 }⟩
        ⟨.unit, ⟨14000000, 10000000000⟩⟩),
      .edit (.addPayment { address, lovelace := 1000000 })]
    ∃ tx u, (b.finalize chain).1 = .ok tx ∧ tx.body.inputs.keys = [⟨.zero, 0⟩, ⟨.zero, 1⟩] ∧
      u.ref = ⟨.zero, 0⟩ ∧ b.Offers chain u ∧ tx.body.referenceInputs.contains u.ref = false ∧
      tx.body.collateral.contains u.ref = false := by
  intro address holding chain b
  obtain ⟨tx, done⟩ := ok_of_isSome
    (show (b.finalize chain).1.toOption.isSome = true by decide +kernel)
  obtain ⟨pool, selected, inputs, _, selects, _, _, keys, _, _, _, others⟩ :=
    finalize_spends (Reachable.fresh.run chain _) done
  have first : (b.selection chain).toOption.map (·.map Utxo.ref) = some [⟨.zero, 1⟩] := by
    decide +kernel
  have last : (b.finalize chain).1.toOption.map (·.body.inputs.keys) =
      some [⟨.zero, 0⟩, ⟨.zero, 1⟩] := by decide +kernel
  rw [show b.selection chain = .ok selected from selects] at first
  rw [done] at last
  replace first : selected.map Utxo.ref = [⟨.zero, 1⟩] := Option.some.inj first
  replace last : tx.body.inputs.keys = [⟨.zero, 0⟩, ⟨.zero, 1⟩] := Option.some.inj last
  obtain ⟨u, spent, pulled⟩ := List.mem_map.1 (show ⟨.zero, 0⟩ ∈ inputs.map Utxo.ref by
    rw [← keys, last]
    exact .head _)
  have late : u ∉ selected := fun mem => by
    have early := List.mem_map_of_mem (f := Utxo.ref) mem
    rw [first, pulled] at early
    revert early
    decide
  obtain ⟨_, offered, apart, free⟩ := others u spent fun mem => by
    obtain rfl := List.mem_singleton.1 mem
    revert pulled
    decide
  exact ⟨tx, u, done, last, pulled, offered, apart, free late⟩

end ConwayTx.Builder
