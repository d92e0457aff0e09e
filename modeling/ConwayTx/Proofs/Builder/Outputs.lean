import ConwayTx.Chain.Fixed
import ConwayTx.Proofs.Builder.Build
import ConwayTx.Proofs.Change
import ConwayTx.Proofs.Collateral
import ConwayTx.Proofs.Payment

/-!
# Outputs of finalized transactions

No output is below its own minimum, wherever it comes from: a payment, change without assets, a bundle
of assets, or what collateral returns. The payments come first, as they were asked for, and all that
follows is change (`finalize_delivers`).
-/

namespace ConwayTx

open Outcome

namespace Builder

theorem draft_outputs {b : Builder} {network : Network} {params : ProtocolParams}
    {redeemers : PendingRedeemers} {d : Draft} (h : b.draft network params redeemers = .ok d) :
    List.Forall₂ (Payment.Delivered params.coinsPerUtxoByte) b.payments d.body.outputs ∧
      d.body.collateralReturn = none := by
  obtain ⟨outputs, paid, h⟩ := bind_ok h
  obtain ⟨metadataHash, _, h⟩ := bind_ok h
  obtain rfl := pure_ok h
  exact ⟨(mapM_ok paid).imp fun _ _ one => Payment.output_delivers one, rfl⟩

theorem admissible_of_addCollateralTo {b : Builder} {start body : TxBody} {ground : Ground}
    {maxFee : Amount} {inputs : List Utxo} (h : b.addCollateralTo start ground maxFee inputs = .ok body)
    (none : start.collateralReturn = none) :
    ∀ o ∈ body.collateralReturn, o.Admissible ground.params.coinsPerUtxoByte := by
  unfold addCollateralTo at h
  split at h
  · obtain ⟨target, _, h⟩ := bind_ok h
    obtain ⟨choice, chosen, h⟩ := bind_ok h
    obtain rfl := pure_ok h
    exact (Collateral.select_ok (mapError_ok chosen)).2.2
  · obtain rfl := pure_ok h
    intro o mem
    cases none.symm.trans mem

section Trace

variable {b : Builder} {chain : Chain} {balanced : Balanced}

theorem Trace.changeAddress (t : Trace b chain balanced) :
    b.changeTarget = .ok t.ground.changeAddress :=
  (ground_ok t.grounded).2.1

theorem Trace.admissible_return (t : Trace b chain balanced) :
    ∀ o ∈ t.body.collateralReturn, o.Admissible t.ground.params.coinsPerUtxoByte := by
  obtain ⟨_, none⟩ := draft_outputs t.drafted
  have secures := t.secures
  split at secures
  · exact admissible_of_addCollateralTo secures none
  · obtain same := pure_ok secures
    rw [← same, none]
    rintro o ⟨⟩

end Trace

/-- Every output holds its own minimum, and so does the one that collateral returns. The payments are
delivered first and in order; what follows goes to the change address and is nothing but a value. -/
theorem finalize_delivers {b : Builder} {chain : Chain} {tx : Transaction} (reachable : Reachable b)
    (h : (b.finalize chain).1 = .ok tx) :
    ∃ params address, chain.params = .ok params ∧ b.changeTarget = .ok address ∧
      (∀ o ∈ tx.body.outputs, o.Admissible params.coinsPerUtxoByte) ∧
      (∀ o ∈ tx.body.collateralReturn, o.Admissible params.coinsPerUtxoByte) ∧
      ∃ paid change, tx.body.outputs = paid ++ change ∧
        List.Forall₂ (Payment.Delivered params.coinsPerUtxoByte) b.payments paid ∧
        ∀ o ∈ change, Change.Plain address params.coinsPerUtxoByte o := by
  obtain ⟨balanced, _, built, rfl, _⟩ := finalize_ok h
  obtain ⟨t⟩ := build_ok built
  obtain ⟨terms, fee, demand, change, r, of, ran, _, rfl, _, _⟩ :=
    t.accepted reachable.nodup_preselected
  obtain ⟨body, _⟩ := Draft.assemble_ok ran.assembled
  rw [of.same] at body
  obtain ⟨delivered, _⟩ := draft_outputs t.drafted
  have outputs : r.tx.body.outputs = t.draft.body.outputs ++ change.outputs := by
    rw [body, t.body_eq]
  have returned : r.tx.body.collateralReturn = t.body.collateralReturn := by rw [body]
  obtain ⟨_, supply, left, _, _, planned⟩ := ran.settles
  have plain : ∀ o ∈ change.outputs,
      Change.Plain t.ground.changeAddress t.ground.params.coinsPerUtxoByte o :=
    Change.plain_of_plan planned
  refine ⟨t.ground.params, t.ground.changeAddress, t.params, t.changeAddress, ?_, ?_,
    t.draft.body.outputs, change.outputs, outputs, delivered, plain⟩
  · rw [outputs]
    refine List.forall_mem_append.2 ⟨?_, fun o mem => (plain o mem).admissible⟩
    intro o mem
    obtain ⟨i, inside, rfl⟩ := List.getElem_of_mem mem
    have counted : i < b.payments.length := by rw [delivered.length_eq]; exact inside
    exact (delivered.get counted inside).admissible
  · rw [returned]
    exact t.admissible_return

theorem finalize_delivers_raised :
    let address : Address := .enterprise .testnet (.key .zero)
    let chain := FixedChain.toChain {}
    let payment : Payment :=
      { address, lovelace := 5, units := [.lovelace 6], datum := some (.inline (.integer 7)) }
    let held := (Value.ofCoin 10000000).addAsset .zero ⟨[], by decide⟩ 7
    let b := run chain {} [
      .edit (.addInput ⟨⟨.zero, 0⟩, { address, value := held }⟩),
      .edit (.setChangeAddress address), .edit (.addPayment payment)]
    ∃ tx paid change, (b.finalize chain).1 = .ok tx ∧ tx.body.outputs = [paid, change] ∧
      payment.requested.1 = 11 ∧ paid.coin = 887860 ∧ payment.Delivered 4310 paid ∧
      Change.Plain address 4310 change := by
  intro address chain payment held b
  obtain ⟨tx, done⟩ := ok_of_isSome
    (show (b.finalize chain).1.toOption.isSome = true by decide +kernel)
  have coins : (b.finalize chain).1.toOption.map (fun tx => tx.body.outputs.map (·.coin)) =
      some [887860, 8944615] := by decide +kernel
  rw [done] at coins
  replace coins : tx.body.outputs.map (·.coin) = [887860, 8944615] := Option.some.inj coins
  obtain ⟨params, target, fetched, changed, _, _, paid, change, outputs, delivered, plain⟩ :=
    finalize_delivers (Reachable.fresh.run chain _) done
  cases fetched
  cases changed
  -- One payment, so the first output is its own and the other one is change.
  have one : paid.length = 1 := delivered.length_eq.symm
  have two := congrArg List.length coins
  rw [List.length_map, outputs, List.length_append, one] at two
  obtain ⟨first, rfl⟩ := List.length_eq_one_iff.1 one
  obtain ⟨last, rfl⟩ := List.length_eq_one_iff.1 (Nat.add_left_cancel two : change.length = 1)
  rw [outputs] at coins
  have amount : first.coin = 887860 := (List.cons.inj coins).1
  cases delivered with
  | cons same _ =>
    exact ⟨tx, first, last, done, outputs, by decide, amount, same,
      plain last (List.mem_singleton_self last)⟩

end Builder

end ConwayTx
