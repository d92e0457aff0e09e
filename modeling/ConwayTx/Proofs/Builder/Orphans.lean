import ConwayTx.Chain.Fixed
import ConwayTx.Proofs.Balance.Orphans
import ConwayTx.Proofs.Builder.Attached
import ConwayTx.Proofs.Builder.Placement
import ConwayTx.Proofs.Builder.Spending

/-!
# Orphaned redeemers

A redeemer is attached together with its output or its withdrawal, and neither is ever taken away
again (`Reachable.anchored`). Only a mint can vanish from under its redeemer, by burning all that it
mints (`finalize_orphans`).
-/

namespace ConwayTx

open Outcome

variable {missing : RedeemerTarget → Prop}

namespace Builder

variable {b : Builder} {chain : Chain} {ground : Ground}

/-! ### What redeemers are for -/

/-- An output or a withdrawal that the target names is attached. -/
def Attached.Anchors (a : Attached) : RedeemerTarget → Prop
  | .spend ref => ref ∈ a.preselected.map Utxo.ref
  | .mint _ => True
  | .reward credential => credential ∈ a.withdrawals.keys.map StakeAddress.credential

def Attached.Anchored (a : Attached) : Prop :=
  ∀ target, a.redeemers.contains target = true → a.Anchors target

theorem Attached.Anchors.mono {a next : Attached} {target : RedeemerTarget}
    (anchors : a.Anchors target)
    (spends : a.preselected.map Utxo.ref ⊆ next.preselected.map Utxo.ref)
    (rewards : a.withdrawals.keys ⊆ next.withdrawals.keys) : next.Anchors target := by
  cases target with
  | spend ref => exact spends anchors
  | mint policy => trivial
  | reward credential =>
    obtain ⟨stake, mem, same⟩ := List.mem_map.1 anchors
    exact List.mem_map.2 ⟨stake, rewards mem, same⟩

theorem Attached.anchors_attach {a : Attached} {x : Attachment} {target : RedeemerTarget}
    (anchors : a.Anchors target) : (a.attach x).Anchors target := by
  refine anchors.mono ?_ ?_
  · cases x with
    | input u | scriptInput u redeemer => exact fun ref mem => ref_mem_addOutputOnce.2 (.inl mem)
    | asset | scriptAsset | withdrawal => exact List.Subset.refl _
  · intro stake mem
    rw [SortedMap.mem_keys] at mem ⊢
    exact (SortedMap.contains_insertMany _ _ _).2 (.inl mem)

/-- A redeemer comes with what it is for. -/
theorem Attached.anchors_redeemer? {a : Attached} {x : Attachment} {target : RedeemerTarget}
    {redeemer : Redeemer} (attached : x.redeemer? = some (target, redeemer)) :
    (a.attach x).Anchors target := by
  cases x with
  | scriptInput u redeemer =>
    cases attached
    exact ref_mem_addOutputOnce.2 (.inr rfl)
  | scriptAsset policy name q redeemer =>
    cases attached
    trivial
  | withdrawal stake amount redeemer? =>
    obtain ⟨redeemer, _, same⟩ := Option.map_eq_some_iff.1 attached
    cases same
    refine List.mem_map.2 ⟨stake, ?_, rfl⟩
    rw [SortedMap.mem_keys]
    exact (SortedMap.contains_insertMany _ _ _).2 (.inr (.head _))
  | input | asset => cases attached

theorem Attached.Anchored.attach {a : Attached} (anchored : a.Anchored) (x : Attachment) :
    (a.attach x).Anchored := by
  intro target held
  rcases (SortedMap.contains_insertMany _ _ _).1 held with before | now
  · exact anchors_attach (anchored target before)
  · obtain ⟨⟨_, redeemer⟩, listed, rfl⟩ := List.mem_map.1 now
    exact anchors_redeemer? (Option.mem_toList.1 listed)

theorem anchored_consumeUtxo {next : Builder} {u : Utxo} {payments : List Payment}
    (h : b.consumeUtxo u payments = .ok next) (anchored : b.attached.Anchored) :
    next.attached.Anchored := by
  obtain ⟨paid, _, h⟩ := bind_ok h
  obtain ⟨remainder, _, h⟩ := bind_ok h
  obtain ⟨rest, _, h⟩ := bind_ok h
  obtain rfl := pure_ok h
  intro target held
  exact (anchored target held).mono (fun ref mem => ref_mem_addOutputOnce.2 (.inl mem))
    (List.Subset.refl _)

/-- Redeemers are only replaced. -/
theorem anchored_updateRedeemers {next : Builder} {updates : PendingRedeemers}
    (h : b.updateRedeemers updates = .ok next) (anchored : b.attached.Anchored) :
    next.attached.Anchored := by
  unfold updateRedeemers at h
  split at h
  · cases h
  · rename_i known
    cases h
    intro target held
    rcases (SortedMap.contains_insertMany _ _ _).1 held with before | now
    · exact anchored target before
    · have old := List.find?_eq_none.1 known target now
      exact anchored target (show b.redeemers.contains target = true by simpa using old)

theorem anchored_apply {e : Edit} {next : Builder} (h : e.apply chain b = .ok next)
    (anchored : b.attached.Anchored) : next.attached.Anchored := by
  rcases e.attaches_or with attaches | setting | ⟨u, payments, rfl⟩ | ⟨updates, rfl⟩
  · cases attached : e.attachment? with
    | none =>
      obtain ⟨error, refused⟩ : ∃ error, e.apply chain b = .error error :=
        refused_of_attachment? attaches attached
      cases h.symm.trans refused
    | some x =>
      cases h.symm.trans (apply_of_attachment? attached)
      exact anchored.attach x
  · rw [attached_of_setting setting h]
    exact anchored
  · exact anchored_consumeUtxo h anchored
  · exact anchored_updateRedeemers h anchored

theorem Reachable.anchored (reachable : Reachable b) : b.attached.Anchored := by
  refine reachable.keeps (fun b => b.attached.Anchored) ?_ ?_ fun _ _ anchored => anchored
  · intro target held
    cases held
  · intro chain b e next applied anchored
    exact anchored_apply applied anchored

/-! ### A build -/

/-- A redeemer of a mint that comes to nothing. -/
def Vanished (b : Builder) (target : RedeemerTarget) : Prop :=
  ∃ policy, target = .mint policy ∧ b.redeemers.contains target = true ∧
    ∀ name, b.mint.quantity policy name = 0

theorem within_changeTarget : Fails (BuildError.Within missing True) b.changeTarget := by
  unfold changeTarget
  split
  · exact .ok _
  · exact .ok _
  · exact .error trivial

theorem within_loadPool : Fails (BuildError.Within missing True) (b.loadPool chain) :=
  .bind (.mapM fun _ _ => within_ask _ _) fun _ _ => .ok _

theorem within_ground : Fails (BuildError.Within missing True) (b.ground chain) := by
  refine .bind (within_ask _ _) fun params _ => ?_
  refine .bind within_changeTarget fun address _ => ?_
  exact .bind within_loadPool fun pool _ => .ok _

theorem within_draft {network : Network} {params : ProtocolParams} {redeemers : PendingRedeemers} :
    Fails (BuildError.Within missing True) (b.draft network params redeemers) := by
  refine .bind (.mapM fun p _ => p.within_output _) fun outputs _ => ?_
  exact .bind (.renamed BuildError.within_ofEncodeError) fun metadataHash _ => .ok _

theorem within_selectInputs {draft : Draft} {maxFee : Amount} :
    Fails (Failure.Within missing True) (b.selectInputs draft ground maxFee) := by
  refine .bind (draft.within_extraSupply _) fun extra _ => ?_
  refine .bind (.mapError (.renamed fun _ => trivial)) fun committed _ => ?_
  refine .bind (draft.within_baseDemand _) fun demand _ => ?_
  refine .bind (.mapError (.renamed fun _ => trivial)) fun required _ => ?_
  exact .bind (Selection.within_selectFrom _ _ _) fun picks _ => .ok _

theorem within_collateralTarget {params : ProtocolParams} {maxFee : Amount} :
    Fails (Failure.Within missing True) (b.collateralTarget params maxFee) := by
  unfold collateralTarget
  split
  · exact .ok _
  · split
    · exact Collateral.within_forFee _ _
    · exact .ok _

theorem within_addCollateralTo {body : TxBody} {maxFee : Amount} {inputs : List Utxo} :
    Fails (Failure.Within missing True) (b.addCollateralTo body ground maxFee inputs) := by
  unfold addCollateralTo
  split
  · refine .bind within_collateralTarget fun target _ => ?_
    exact .bind (.mapError (Collateral.within_firstServing _)) fun choice _ => .ok _
  · exact .ok _

/-- What is anchored is in the body, whatever inputs the preselected ones are among. -/
theorem vanished_of_unplaced {body : TxBody} {more : List Utxo} {target : RedeemerTarget}
    (anchored : b.attached.Anchored) (sub : b.preselected ⊆ more)
    (withdrawals : body.withdrawals = b.withdrawals) (mint : body.mint = b.mint.assets)
    (held : b.redeemers.contains target = true)
    (unplaced : (RedeemerLayout.ofBody { body with
      inputs := body.inputs.addKeys (more.map Utxo.ref) }).position? target = none) :
    b.Vanished target := by
  have anchors := anchored target held
  cases target with
  | spend ref =>
    have listed : ref ∈ (body.inputs.addKeys (more.map Utxo.ref)).keys := by
      rw [SortedMap.mem_keys, SortedMap.contains_addKeys]
      exact .inr (List.map_subset _ sub anchors)
    exact absurd listed (List.idxOf?_eq_none_iff.1 unplaced)
  | reward credential =>
    have absent := List.idxOf?_eq_none_iff.1 unplaced
    exact absurd (show credential ∈ body.withdrawals.keys.map StakeAddress.credential by
      rw [withdrawals]; exact anchors) absent
  | mint policy =>
    refine ⟨policy, rfl, held, fun name => ?_⟩
    have absent : policy ∉ (body.mint.getD ∅).keys := List.idxOf?_eq_none_iff.1 unplaced
    rw [mint, SortedMap.mem_keys, SortedMap.contains, Bool.not_eq_true,
      Option.isSome_eq_false_iff, Option.isNone_iff_eq_none] at absent
    rw [Value.quantity, MultiAsset.quantity, Value.bundle, absent]
    rfl

theorem contains_of_data {redeemers redeemers' : PendingRedeemers}
    (same : redeemers.mapValues Redeemer.data = redeemers'.mapValues Redeemer.data)
    (target : RedeemerTarget) : redeemers.contains target = redeemers'.contains target := by
  have found := congrArg (fun data => (data.find? target).isSome) same
  rwa [SortedMap.find?_mapValues, SortedMap.find?_mapValues, Option.isSome_map,
    Option.isSome_map] at found

theorem within_buildWith {redeemers : PendingRedeemers} (anchored : b.attached.Anchored)
    (data : redeemers.mapValues Redeemer.data = b.redeemers.mapValues Redeemer.data) :
    Fails (Failure.Within b.Vanished True) (b.buildWith chain ground redeemers) := by
  have assembles {draft : Draft} {body : TxBody} {inputs : List Utxo} {maxFee : Amount}
      (drafted : b.draft chain.network ground.params redeemers = .ok draft)
      (selected : b.selectInputs draft ground maxFee = .ok inputs)
      (same : body = { draft.body with
        collateral := body.collateral
        collateralReturn := body.collateralReturn
        totalCollateral := body.totalCollateral }) :
      Balancer.Assembles b.Vanished { draft with body } inputs := by
    intro more change fee models sub e failed
    obtain ⟨none, mint, _, pending, _⟩ := draft_ok drafted
    have spent := List.Subset.trans (preselected_subset_selectInputs selected) sub
    refine (Draft.within_assemble _ _ _ _ _ e failed).imp (fun target => ?_) id
    rintro ⟨held, unplaced⟩
    refine vanished_of_unplaced anchored spent ?_ ?_ ?_ unplaced
    · rw [same]
      exact (carries_draft drafted).withdrawals
    · rw [same]
      exact mint
    · rw [← contains_of_data data, ← pending]
      exact held
  refine .bind (.mapError within_draft) fun draft drafted => ?_
  refine .bind (.mapError (within_ask _ _)) fun maxFee _ => ?_
  refine .bind within_selectInputs fun inputs selected => ?_
  dsimp only
  split
  · refine .bind within_addCollateralTo fun body secured => ?_
    exact Balancer.within_balance
      (assembles (mapError_ok drafted) selected (addCollateralTo_ok secured))
  · exact Balancer.within_balance (assembles (mapError_ok drafted) selected rfl)

theorem within_trial (anchored : b.attached.Anchored) :
    Fails (Failure.Within b.Vanished True) (b.trial chain ground) := by
  refine .bind (within_buildWith anchored rfl) fun balanced _ => ?_
  exact .bind (.mapError (.renamed BuildError.within_ofEncodeError)) fun encoded _ => .ok _

theorem within_settledRedeemers (anchored : b.attached.Anchored) :
    Fails (Failure.Within b.Vanished True) (b.settledRedeemers chain ground) := by
  unfold settledRedeemers
  split
  · refine .bind (within_trial anchored) fun trial _ => ?_
    exact .bind (.mapError (within_ask _ _)) fun evaluation _ => .ok _
  · exact .ok _

theorem within_build (anchored : b.attached.Anchored) :
    Fails (Failure.Within b.Vanished True) (b.build chain) := by
  refine .bind (.mapError within_ground) fun ground _ => ?_
  refine .bind (within_settledRedeemers anchored) fun redeemers settled => ?_
  exact within_buildWith anchored (data_settledRedeemers settled)

theorem within_finalize (anchored : b.attached.Anchored) :
    Fails (Failure.Within b.Vanished True) (b.finalize chain).1 := by
  unfold finalize
  split
  · exact .error trivial
  · exact .error trivial
  · split
    · exact .ok _
    · exact .error trivial
    · rename_i failed
      exact .error (within_build anchored _ failed)

/-- Each spending redeemer has its output among the preselected ones, each reward redeemer a
withdrawal of its credential. So the only orphan that `finalize` can report is the redeemer of a
policy whose net mint is zero throughout. -/
theorem finalize_orphans (reachable : Reachable b) :
    (∀ ref, b.redeemers.contains (.spend ref) = true → ∃ u ∈ b.preselected, u.ref = ref) ∧
    (∀ credential, b.redeemers.contains (.reward credential) = true →
      ∃ stake, b.withdrawals.contains stake = true ∧ stake.credential = credential) ∧
    ∀ chain target, (b.finalize chain).1 = .error (.refused (.orphanRedeemer target)) →
      ∃ policy, target = .mint policy ∧ b.redeemers.contains target = true ∧
        ∀ name, b.mint.quantity policy name = 0 := by
  refine ⟨fun ref held => ?_, fun credential held => ?_, fun chain target failed => ?_⟩
  · exact List.mem_map.1 (reachable.anchored (.spend ref) held)
  · obtain ⟨stake, mem, same⟩ := List.mem_map.1 (reachable.anchored (.reward credential) held)
    exact ⟨stake, (SortedMap.mem_keys _ _).1 mem, same⟩
  · exact within_finalize reachable.anchored _ failed

theorem finalize_orphans_burned :
    let address : Address := .enterprise .testnet (.key .zero)
    let script : Utxo := ⟨⟨.zero, 1⟩,
      { address := .enterprise .testnet (.script .zero), value := .ofCoin 20000000 }⟩
    let reward : Address := .stake ⟨.testnet, .script .zero⟩
    let zeros := "00000000000000000000000000000000000000000000000000000000"
    let redeemer (n : Int) : Redeemer := ⟨.integer n, ⟨1000, 1000⟩⟩
    let chain := FixedChain.toChain { utxos := [⟨⟨.zero, 2⟩, { address, value := .ofCoin 10000000 }⟩] }
    let b := run chain {} [
      .edit .disableEstimation, .edit (.setChangeAddress address), .edit (.addInputAddress address),
      .edit (.addInput script), .edit (.collectFrom script (redeemer 0)),
      .edit (.addWithdrawal reward 5 (some (redeemer 1))), .edit (.addWithdrawal reward 6 none),
      .edit (.mintAssetsWithRedeemer ⟨zeros, "", 7⟩ (redeemer 2)),
      .edit (.mintAssets ⟨zeros, "", -7⟩),
      .edit (.updateRedeemers (.ofList [(.mint .zero, redeemer 3)]))]
    b.redeemers.keys = [.spend ⟨.zero, 1⟩, .mint .zero, .reward (.script .zero)] ∧
    (b.finalize chain).1 = .error (.refused (.orphanRedeemer (.mint .zero))) ∧
    (∃ u ∈ b.preselected, u.ref = ⟨.zero, 1⟩) ∧ (∀ name, b.mint.quantity .zero name = 0) := by
  intro address script reward zeros redeemer chain b
  have failed : (b.finalize chain).1 = .error (.refused (.orphanRedeemer (.mint .zero))) :=
    error_of_error? (by decide +kernel)
  obtain ⟨spends, _, vanished⟩ := finalize_orphans (Reachable.fresh.run chain _ : Reachable b)
  obtain ⟨policy, same, _, zero⟩ := vanished chain _ failed
  cases same
  exact ⟨by decide +kernel, failed, spends _ (by decide +kernel), zero⟩

end Builder

end ConwayTx
