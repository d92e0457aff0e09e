import ConwayTx.Proofs.Balance.Rounds
import ConwayTx.Proofs.Builder.Reachable
import ConwayTx.Proofs.Draft

/-!
# Builds

The steps of a build that ended well (`Trace`), and what each of them hands to the next one: a pool
without repeated references, a draft without inputs, and a first selection that repeats none.
-/

namespace ConwayTx.Builder

open Outcome

/-! ### Supplied outputs -/

/-- Preselected, loaded, or fetched from one of the sources. -/
def Supplies (b : Builder) (chain : Chain) (u : Utxo) : Prop :=
  u ∈ b.preselected ∨ u ∈ b.loadedUtxos ∨
    ∃ address ∈ b.sources, ∃ utxos, chain.utxosAt address = .ok utxos ∧ u ∈ utxos

theorem nodup_pool {utxos start : List Utxo} (distinct : (start.map Utxo.ref).Nodup) :
    ((utxos.foldl addOutputOnce start).map Utxo.ref).Nodup := by
  induction utxos generalizing start with
  | nil => exact distinct
  | cons u rest ih => exact ih (nodup_addOutputOnce distinct u)

theorem mem_pool {utxos start : List Utxo} {u : Utxo} (mem : u ∈ utxos.foldl addOutputOnce start) :
    u ∈ start ∨ u ∈ utxos := by
  induction utxos generalizing start with
  | nil => exact .inl mem
  | cons v rest ih =>
    rcases ih mem with before | later
    · unfold addOutputOnce at before
      split at before
      · exact .inl before
      · rcases List.mem_append.1 before with old | new
        · exact .inl old
        · rw [List.mem_singleton.1 new]
          exact .inr (.head _)
    · exact .inr (.tail _ later)

/-- Loaded, or fetched from one of the sources. -/
def Offers (b : Builder) (chain : Chain) (u : Utxo) : Prop :=
  u ∈ b.loadedUtxos ∨
    ∃ address ∈ b.sources, ∃ utxos, chain.utxosAt address = .ok utxos ∧ u ∈ utxos

/-- The pool is offered, and reference inputs stay out of it. -/
theorem mem_loadPool {b : Builder} {chain : Chain} {pool : List Utxo} {u : Utxo}
    (h : b.loadPool chain = .ok pool) (mem : u ∈ pool) :
    b.Offers chain u ∧ ∀ r ∈ b.referenceInputs, r.ref ≠ u.ref := by
  obtain ⟨fetched, answers, h⟩ := bind_ok h
  obtain rfl := pure_ok h
  have spendable := (mem_pool mem).resolve_left List.not_mem_nil
  refine ⟨?_, fun r listed => Balancer.not_mem_withoutRefs spendable listed⟩
  rcases List.mem_append.1 ((Balancer.withoutRefs_sublist _ _).subset spendable) with loaded | inside
  · exact .inl loaded
  · obtain ⟨utxos, listed, within⟩ := List.mem_flatten.1 inside
    obtain ⟨i, bound, rfl⟩ := List.getElem_of_mem listed
    have answered := mapM_ok answers
    have small : i < b.sources.length := by rw [answered.length_eq]; exact bound
    exact .inr ⟨_, List.getElem_mem small, _, ask_ok (answered.get small bound), within⟩

theorem loadPool_ok {b : Builder} {chain : Chain} {pool : List Utxo}
    (h : b.loadPool chain = .ok pool) :
    (pool.map Utxo.ref).Nodup ∧ ∀ u ∈ pool, b.Supplies chain u := by
  refine ⟨?_, fun u mem => .inr (mem_loadPool h mem).1⟩
  obtain ⟨fetched, _, h⟩ := bind_ok h
  obtain rfl := pure_ok h
  exact nodup_pool List.nodup_nil

/-! ### The draft -/

theorem draft_ok {b : Builder} {network : Network} {params : ProtocolParams}
    {redeemers : PendingRedeemers} {d : Draft} (h : b.draft network params redeemers = .ok d) :
    d.body.inputs = ∅ ∧ d.body.mint = b.mint.assets ∧ d.body.requiredSigners = b.requiredSigners ∧
      d.redeemers = redeemers ∧ d.stakeWitnesses = b.stakeSigners.size := by
  obtain ⟨outputs, _, h⟩ := bind_ok h
  obtain ⟨metadataHash, _, h⟩ := bind_ok h
  obtain rfl := pure_ok h
  exact ⟨rfl, rfl, rfl, rfl, rfl⟩

/-- Fields of the body that come from the builder as they are. -/
structure Carries (b : Builder) (body : TxBody) : Prop where
  certificates : body.certificates = b.certificates
  withdrawals : body.withdrawals = b.withdrawals
  requiredSigners : body.requiredSigners = b.requiredSigners
  referenceInputs : body.referenceInputs = .ofKeys (b.referenceInputs.map Utxo.ref)

theorem carries_draft {b : Builder} {network : Network} {params : ProtocolParams}
    {redeemers : PendingRedeemers} {d : Draft} (h : b.draft network params redeemers = .ok d) :
    b.Carries d.body := by
  obtain ⟨outputs, _, h⟩ := bind_ok h
  obtain ⟨metadataHash, _, h⟩ := bind_ok h
  obtain rfl := pure_ok h
  exact ⟨rfl, rfl, rfl, rfl⟩

/-! ### The steps of a build -/

structure Trace (b : Builder) (chain : Chain) (balanced : Balanced) where
  ground : Ground
  redeemers : PendingRedeemers
  draft : Draft
  maxFee : Amount
  selected : List Utxo
  /-- The draft's body with collateral. -/
  body : TxBody
  grounded : b.ground chain = .ok ground
  settled : b.settledRedeemers chain ground = .ok redeemers
  drafted : b.draft chain.network ground.params redeemers = .ok draft
  bounded : chain.maxTxFee = .ok maxFee
  selects : b.selectInputs draft ground maxFee = .ok selected
  secures : (if b.runsScripts then b.addCollateralTo draft.body ground maxFee selected
    else .ok draft.body) = .ok body
  balances : (b.balancer ground body.collateral).balance { draft with body } selected = .ok balanced

theorem build_ok {b : Builder} {chain : Chain} {balanced : Balanced}
    (h : b.build chain = .ok balanced) : Nonempty (Trace b chain balanced) := by
  obtain ⟨ground, grounded, h⟩ := bind_ok h
  obtain ⟨redeemers, settled, h⟩ := bind_ok h
  obtain ⟨draft, drafted, h⟩ := bind_ok h
  obtain ⟨maxFee, bounded, h⟩ := bind_ok h
  obtain ⟨selected, selects, h⟩ := bind_ok h
  have secured : ∃ body, (if b.runsScripts then b.addCollateralTo draft.body ground maxFee selected
        else .ok draft.body) = .ok body ∧
      (b.balancer ground body.collateral).balance { draft with body } selected = .ok balanced := by
    dsimp only at h
    split at h
    · rename_i runs
      rw [if_pos runs]
      exact bind_ok h
    · rename_i native
      rw [if_neg native]
      exact bind_ok h
  obtain ⟨body, secures, h⟩ := secured
  exact ⟨ground, redeemers, draft, maxFee, selected, body, mapError_ok grounded, settled,
    mapError_ok drafted, ask_ok (mapError_ok bounded), selects, secures, h⟩

/-- Collateral enters fields of its own. -/
theorem addCollateralTo_ok {b : Builder} {start body : TxBody} {ground : Ground} {maxFee : Amount}
    {inputs : List Utxo} (h : b.addCollateralTo start ground maxFee inputs = .ok body) :
    body = { start with
      collateral := body.collateral
      collateralReturn := body.collateralReturn
      totalCollateral := body.totalCollateral } := by
  unfold addCollateralTo at h
  split at h
  · obtain ⟨target, _, h⟩ := bind_ok h
    obtain ⟨choice, _, h⟩ := bind_ok h
    obtain rfl := pure_ok h
    rfl
  · obtain rfl := pure_ok h
    rfl

theorem selectInputs_ok {b : Builder} {draft : Draft} {ground : Ground} {maxFee : Amount}
    {inputs : List Utxo} (h : b.selectInputs draft ground maxFee = .ok inputs)
    (given : (b.preselected.map Utxo.ref).Nodup) (distinct : (ground.pool.map Utxo.ref).Nodup) :
    (inputs.map Utxo.ref).Nodup ∧ ∀ u ∈ inputs, u ∈ b.preselected ∨ u ∈ ground.pool := by
  obtain ⟨extra, _, h⟩ := bind_ok h
  obtain ⟨committed, _, h⟩ := bind_ok h
  obtain ⟨demand, _, h⟩ := bind_ok h
  obtain ⟨required, _, h⟩ := bind_ok h
  obtain ⟨picks, picked, h⟩ := bind_ok h
  obtain rfl := pure_ok h
  have unused (u : Utxo) (mem : u ∈ picks) := Selection.mem_unused.1
    (Selection.subset_ranked _ (Selection.subset_of_selectFrom picked mem))
  have apart : (Selection.unused ground.pool (.ofKeys (b.preselected.map Utxo.ref))).map Utxo.ref
      |>.Nodup := distinct.sublist (List.filter_sublist.map _)
  constructor
  · rw [List.map_append, List.nodup_append]
    refine ⟨given, Selection.nodup_refs_of_selectFrom (Utxo.consistent_of_nodup apart) picked, ?_⟩
    intro r mem r' mem' same
    obtain ⟨u, inside, rfl⟩ := List.mem_map.1 mem'
    have used := (unused u inside).2
    rw [← same, Bool.eq_false_iff] at used
    exact used ((SortedMap.contains_ofKeys _ _).2 mem)
  · intro u mem
    rcases List.mem_append.1 mem with given | inside
    · exact .inl given
    · exact .inr (unused u inside).1

section Trace

variable {b : Builder} {chain : Chain} {balanced : Balanced}

theorem ground_ok {ground : Ground} (h : b.ground chain = .ok ground) :
    chain.params = .ok ground.params ∧ b.changeTarget = .ok ground.changeAddress ∧
      b.loadPool chain = .ok ground.pool := by
  obtain ⟨params, fetched, h⟩ := bind_ok h
  obtain ⟨address, target, h⟩ := bind_ok h
  obtain ⟨pool, loaded, h⟩ := bind_ok h
  rw [← pure_ok h]
  exact ⟨ask_ok fetched, target, loaded⟩

theorem Trace.params (t : Trace b chain balanced) : chain.params = .ok t.ground.params :=
  (ground_ok t.grounded).1

theorem Trace.pool (t : Trace b chain balanced) :
    (t.ground.pool.map Utxo.ref).Nodup ∧ ∀ u ∈ t.ground.pool, b.Supplies chain u :=
  loadPool_ok (ground_ok t.grounded).2.2

theorem Trace.body_eq (t : Trace b chain balanced) : t.body = { t.draft.body with
    collateral := t.body.collateral
    collateralReturn := t.body.collateralReturn
    totalCollateral := t.body.totalCollateral } := by
  have secures := t.secures
  split at secures
  · exact addCollateralTo_ok secures
  · obtain same := pure_ok secures
    rw [← same]

/-- Balancing leaves the collateral alone, and the build what it took from the builder. -/
theorem Trace.carries (t : Trace b chain balanced) :
    b.Carries balanced.tx.body ∧ balanced.tx.body.collateral = t.body.collateral := by
  obtain ⟨inputs, change, charged, assembled⟩ := Balancer.balance_assembles t.balances
  obtain ⟨certificates, withdrawals, signers, references⟩ := carries_draft t.drafted
  rw [(Draft.assemble_ok assembled).1, t.body_eq]
  exact ⟨⟨certificates, withdrawals, signers, references⟩, rfl⟩

/-- The round that was accepted, over distinct supplied outputs. -/
theorem Trace.accepted (t : Trace b chain balanced)
    (given : (b.preselected.map Utxo.ref).Nodup) :
    let balancer := b.balancer t.ground t.body.collateral
    ∃ terms fee demand change r, Balancer.Terms.Of balancer { t.draft with body := t.body } terms ∧
      Balancer.Ran balancer terms fee demand change r ∧ Balancer.Accepted balancer fee r ∧
      balanced = ⟨r.tx, r.inputs⟩ ∧ (r.inputs.map Utxo.ref).Nodup ∧
      ∀ u ∈ r.inputs, b.Supplies chain u := by
  intro balancer
  obtain ⟨distinct, supplied⟩ := t.pool
  obtain ⟨refs, chosen⟩ := selectInputs_ok t.selects given distinct
  have pool : balancer.pool.Sublist t.ground.pool := List.filter_sublist
  obtain ⟨terms, fee, demand, change, r, of, ran, accepted, same, inputs, _, within⟩ :=
    Balancer.balance_ok t.balances refs (distinct.sublist (pool.map _))
  refine ⟨terms, fee, demand, change, r, of, ran, accepted, same, inputs, fun u mem => ?_⟩
  rcases List.mem_append.1 (within mem) with first | later
  · rcases chosen u first with preselected | pooled
    · exact .inl preselected
    · exact supplied u pooled
  · exact supplied u (pool.subset later)

/-- What a round takes over from the builder. -/
theorem Trace.round (t : Trace b chain balanced) {balancer : Balancer} {terms : Balancer.Terms}
    {fee : Amount} {demand : Value} {change : Change} {r : Balancer.Round}
    (of : Balancer.Terms.Of balancer { t.draft with body := t.body } terms)
    (ran : Balancer.Ran balancer terms fee demand change r) :
    r.tx.body.mint = b.mint.assets ∧ r.tx.body.requiredSigners = b.requiredSigners ∧
      terms.draft.redeemers = t.redeemers ∧ terms.draft.stakeWitnesses = b.stakeSigners.size := by
  obtain ⟨_, mint, signers, redeemers, stake⟩ := draft_ok t.drafted
  obtain ⟨body, _⟩ := Draft.assemble_ok ran.assembled
  rw [of.same, t.body_eq] at body
  rw [body, of.same]
  exact ⟨mint, signers, redeemers, stake⟩

end Trace

theorem finalize_ok {b : Builder} {chain : Chain} {tx : Transaction}
    (h : (b.finalize chain).1 = .ok tx) :
    ∃ balanced, b.stage = .collecting ∧ b.build chain = .ok balanced ∧ tx = balanced.tx ∧
      (b.finalize chain).2 = { b with stage := .finalized tx balanced.inputs } := by
  unfold finalize at h ⊢
  split at h
  · cases h
  · cases h
  · rename_i stage
    split at h
    · rename_i balanced built
      cases h
      exact ⟨balanced, stage, built, rfl, rfl⟩
    · cases h
    · cases h

end ConwayTx.Builder
