import ConwayTx.Proofs.Builder.Fee
import ConwayTx.Proofs.Redeemer.Placement

/-!
# Redeemers of finalized transactions

A finalized transaction has each attached redeemer once, with its data, under a pointer that
designates its target in the encoded body (`finalize_places`). Evaluation changes budgets only.
-/

namespace ConwayTx

open Outcome

theorem RedeemerLayout.placed_ok {l : RedeemerLayout} {pending : PendingRedeemers}
    {placed : List (RedeemerPointer × Redeemer)} (h : l.placed pending = .ok placed) :
    List.Forall₂ (fun attached entry => l.pointer? attached.1 = some entry.1 ∧ entry.2 = attached.2)
      pending.entries placed := by
  refine (mapM_ok h).imp ?_
  rintro ⟨target, redeemer⟩ entry one
  dsimp only at one
  split at one
  · rename_i pointer found
    cases one
    exact ⟨found, rfl⟩
  · cases one

namespace Builder

/-! ### Budgets -/

theorem data_budget (redeemers : PendingRedeemers) (target : RedeemerTarget) (units : ExUnits) :
    (budget redeemers target units).mapValues Redeemer.data =
      redeemers.mapValues Redeemer.data := by
  unfold budget
  split
  · rename_i redeemer found
    apply SortedMap.eq_of_find?
    intro k
    rw [SortedMap.find?_mapValues, SortedMap.find?_mapValues, SortedMap.find?_insert]
    split_ifs with here
    · rw [here, found]
      rfl
    · rfl
  · rfl

theorem data_withBudgets (b : Builder) (body : TxBody) (evaluation : Evaluation) :
    (b.withBudgets body evaluation).mapValues Redeemer.data =
      b.redeemers.mapValues Redeemer.data := by
  unfold withBudgets
  refine List.foldlRecOn (motive := fun redeemers : PendingRedeemers =>
    redeemers.mapValues Redeemer.data = b.redeemers.mapValues Redeemer.data) _ _ rfl ?_
  intro redeemers same e _
  dsimp only
  split
  · exact (data_budget _ _ _).trans same
  · exact same

theorem data_settledRedeemers {b : Builder} {chain : Chain} {ground : Ground}
    {redeemers : PendingRedeemers} (h : b.settledRedeemers chain ground = .ok redeemers) :
    redeemers.mapValues Redeemer.data = b.redeemers.mapValues Redeemer.data := by
  unfold settledRedeemers at h
  split at h
  · obtain ⟨trial, _, h⟩ := bind_ok h
    obtain ⟨evaluation, _, h⟩ := bind_ok h
    rw [← pure_ok h]
    exact b.data_withBudgets _ _
  · rw [← pure_ok h]

/-! ### The finalized transaction -/

/-- The fee estimate measured the transaction, and the size it allows bounds all counts in it. -/
theorem measured_of_ran {balancer : Balancer} {terms : Balancer.Terms} {fee : Amount}
    {demand : Value} {change : Change} {r : Balancer.Round}
    (ran : Balancer.Ran balancer terms fee demand change r)
    (accepted : Balancer.Accepted balancer fee r) :
    ∃ size, (r.tx.withKeys []).size = .ok size ∧ size < UInt32.size := by
  have few : ([] : List KeyWitness).length ≤ Fee.signatures r.tx terms.draft.stakeWitnesses :=
    Nat.zero_le _
  obtain ⟨size, measured, le, _⟩ := Fee.estimate_covers ran.estimated few
  exact ⟨size, measured, (le.trans accepted.fits).trans_lt (UInt32.toNat_lt_size _)⟩

/-- The body that was built encodes, with few enough items for pointers, and holds the settled
redeemers where its layout has them. -/
theorem finalize_settles {b : Builder} {chain : Chain} {tx : Transaction} (reachable : Reachable b)
    (h : (b.finalize chain).1 = .ok tx) :
    ∃ item ground redeemers, tx.body.toCbor = .ok item ∧ item.length < UInt64.size ∧
      (tx.body.mint.getD ∅).Canonical ∧ (RedeemerLayout.ofBody tx.body).Small ∧
      (RedeemerLayout.ofBody tx.body).assign redeemers = .ok tx.witnesses.redeemers ∧
      b.ground chain = .ok ground ∧ b.settledRedeemers chain ground = .ok redeemers := by
  obtain ⟨balanced, _, built, rfl, _⟩ := finalize_ok h
  obtain ⟨t⟩ := build_ok built
  obtain ⟨terms, fee, demand, change, r, of, ran, accepted, rfl, _, _⟩ :=
    t.accepted reachable.nodup_preselected
  obtain ⟨mint, _, settled, _⟩ := t.round of ran
  obtain ⟨size, measured, fits⟩ := measured_of_ran ran accepted
  obtain ⟨item, metadata, encodes, _, rfl⟩ := Transaction.size_ok measured
  have within := Cbor.length_le_of_mem_array
    (List.mem_cons_self (a := item) (l := [(r.tx.withKeys []).witnesses.toCbor,
      .bool (r.tx.withKeys []).isValid, .option metadata]))
  have canonical : (r.tx.body.mint.getD ∅).Canonical := by
    rw [mint]
    exact reachable.canonical_mint
  have small := small_layout measured fits canonical
  obtain ⟨body, assigned, _⟩ := Draft.assemble_ok ran.assembled
  rw [settled] at assigned
  refine ⟨item, t.ground, t.redeemers, encodes, ?_, canonical, small, ?_, t.grounded, t.settled⟩
  · exact (within.trans_lt fits).trans (by decide)
  · rw [body]
    exact assigned

theorem finalize_assigns {b : Builder} {chain : Chain} {tx : Transaction} (reachable : Reachable b)
    (h : (b.finalize chain).1 = .ok tx) :
    ∃ item redeemers, tx.body.toCbor = .ok item ∧ item.length < UInt64.size ∧
      (tx.body.mint.getD ∅).Canonical ∧ (RedeemerLayout.ofBody tx.body).Small ∧
      (RedeemerLayout.ofBody tx.body).assign redeemers = .ok tx.witnesses.redeemers ∧
      redeemers.mapValues Redeemer.data = b.redeemers.mapValues Redeemer.data := by
  obtain ⟨item, ground, redeemers, encodes, short, canonical, small, assigned, _, settled⟩ :=
    finalize_settles reachable h
  exact ⟨item, redeemers, encodes, short, canonical, small, assigned, data_settledRedeemers settled⟩

/-- Each attached redeemer is in the finalized transaction once, with its data, under the pointer of
the place that its target has in the encoded body. -/
theorem finalize_places {b : Builder} {chain : Chain} {tx : Transaction} (reachable : Reachable b)
    (h : (b.finalize chain).1 = .ok tx) :
    ∃ item, tx.body.encode = .ok item.encode ∧
      (∀ other : Cbor, other.encode = item.encode → other = item) ∧
      ∃ placed, tx.witnesses.redeemers.entries.Perm placed ∧
        List.Forall₂ (fun attached entry =>
            entry.2.data = attached.2.data ∧ Designates item entry.1 attached.1)
          b.redeemers.entries placed := by
  obtain ⟨item, redeemers, encodes, short, canonical, small, assigned, data⟩ :=
    finalize_assigns reachable h
  obtain ⟨placed, places, perm, _⟩ := RedeemerLayout.assign_ok small assigned
  refine ⟨item, ?_, ?_, placed, perm, ?_⟩
  · rw [TxBody.encode, encodes]
    rfl
  · intro other same
    exact (Cbor.encode_inj short same.symm).symm
  · have settled : List.Forall₂ (fun (attached : RedeemerTarget × PlutusData) entry =>
        (RedeemerLayout.ofBody tx.body).pointer? attached.1 = some entry.1 ∧
          entry.2.data = attached.2)
        (redeemers.mapValues Redeemer.data).entries placed := by
      refine List.forall₂_map_left_iff.2 ((RedeemerLayout.placed_ok places).imp ?_)
      rintro attached entry ⟨found, same⟩
      exact ⟨found, congrArg Redeemer.data same⟩
    rw [data] at settled
    refine (List.forall₂_map_left_iff.1 settled).imp ?_
    rintro attached entry ⟨found, same⟩
    exact ⟨same, RedeemerLayout.designates_of_pointer? encodes canonical small found⟩

theorem finalize_places_four :
    let address : Address := .enterprise .testnet (.key .zero)
    let script : Address := .enterprise .testnet (.script .zero)
    let chain := FixedChain.toChain {
      utxos := [⟨⟨.zero, 2⟩, { address, value := .ofCoin 10000000 }⟩] }
    let zeros := "00000000000000000000000000000000000000000000000000000000"
    let b := run chain {} [
      .edit .disableEstimation, .edit (.setChangeAddress address), .edit (.addInputAddress address),
      .edit (.addWithdrawal (.stake ⟨.testnet, .script .zero⟩) 5 (some ⟨.integer 3, ⟨1000, 1000⟩⟩)),
      .edit (.collectFrom ⟨⟨.zero, 1⟩, { address := script, value := .ofCoin 20000000 }⟩
        ⟨.integer 1, ⟨1000, 1000⟩⟩),
      .edit (.mintAssetsWithRedeemer ⟨zeros, "", 7⟩ ⟨.integer 2, ⟨1000, 1000⟩⟩),
      .edit (.collectFrom ⟨⟨.zero, 0⟩, { address := script, value := .ofCoin 20000000 }⟩
        ⟨.integer 0, ⟨1000, 1000⟩⟩)]
    ∃ tx item placed, (b.finalize chain).1 = .ok tx ∧ tx.body.encode = .ok item.encode ∧
      tx.witnesses.redeemers.entries.Perm placed ∧ placed.length = 4 ∧
      List.Forall₂ (fun attached entry => Designates item entry.1 attached.1)
        b.redeemers.entries placed := by
  intro address script chain zeros b
  obtain ⟨tx, done⟩ := ok_of_isSome
    (show (b.finalize chain).1.toOption.isSome = true by decide +kernel)
  have four : b.redeemers.entries.length = 4 := by decide +kernel
  obtain ⟨item, encodes, _, placed, perm, places⟩ :=
    finalize_places (Reachable.fresh.run chain _) done
  refine ⟨tx, item, placed, done, encodes, perm, places.length_eq.symm.trans four, ?_⟩
  exact places.imp fun _ _ entry => entry.2

end Builder

end ConwayTx
