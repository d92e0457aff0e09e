import ConwayTx.Chain.Fixed
import ConwayTx.Proofs.Balance.Order
import ConwayTx.Proofs.Builder.Stages

/-!
# Builders and the order of loaded outputs

The pool has each output once (`samePool_pool`), and whatever a build picks from it, first inputs,
collateral, inputs for change, it picks by rank. So the order in which outputs were loaded, and how
often, makes no difference to what is finalized (`finalize_order`).
-/

namespace ConwayTx

open Outcome Utxo

/-! ### Lists that load the same -/

namespace Utxo

/-- The same outputs in any order and any number, where outputs of one reference are equal. -/
structure Alike (p q : List Utxo) : Prop where
  into : ∀ u ∈ p, ∃ v ∈ q, u.Same v
  onto : ∀ v ∈ q, ∃ u ∈ p, u.Same v
  sound : ∀ u ∈ p, ∀ v ∈ p, u.ref = v.ref → u.Same v

theorem Alike.mem_iff {p q : List Utxo} (alike : Alike p q) (x : Utxo) :
    x ∈ p.map plain ↔ x ∈ q.map plain := by
  simp only [List.mem_map]
  constructor
  · rintro ⟨u, mem, rfl⟩
    obtain ⟨v, there, same⟩ := alike.into u mem
    exact ⟨v, there, (plain_eq_iff.2 same).symm⟩
  · rintro ⟨v, mem, rfl⟩
    obtain ⟨u, there, same⟩ := alike.onto v mem
    exact ⟨u, there, plain_eq_iff.2 same⟩

theorem Alike.sound' {p q : List Utxo} (alike : Alike p q) {u v : Utxo} (mem : u ∈ q)
    (mem' : v ∈ q) (refs : u.ref = v.ref) : u.Same v := by
  obtain ⟨u', there, same⟩ := alike.onto u mem
  obtain ⟨v', there', same'⟩ := alike.onto v mem'
  have given := alike.sound u' there v' there' (same.ref.trans (refs.trans same'.ref.symm))
  rw [← plain_eq_iff] at same same' given ⊢
  rw [← same, given, same']

theorem Alike.isEmpty {p q : List Utxo} (alike : Alike p q) : p.isEmpty = q.isEmpty := by
  cases p with
  | nil =>
    cases q with
    | nil => rfl
    | cons v _ =>
      obtain ⟨_, mem, _⟩ := alike.onto v (.head _)
      cases mem
  | cons u _ =>
    cases q with
    | nil =>
      obtain ⟨_, mem, _⟩ := alike.into u (.head _)
      cases mem
    | cons _ _ => rfl

theorem Alike.filter {p q : List Utxo} {keep : Utxo → Bool} (alike : Alike p q)
    (blind : ∀ u, keep u.plain = keep u) : Alike (p.filter keep) (q.filter keep) := by
  have kept {u v : Utxo} (same : u.Same v) : keep u = keep v := by
    rw [← blind u, ← blind v, plain_eq_iff.2 same]
  refine ⟨fun u mem => ?_, fun v mem => ?_, fun u mem v mem' => ?_⟩
  · obtain ⟨inside, keeps⟩ := List.mem_filter.1 mem
    obtain ⟨v, there, same⟩ := alike.into u inside
    exact ⟨v, List.mem_filter.2 ⟨there, (kept same).symm.trans keeps⟩, same⟩
  · obtain ⟨inside, keeps⟩ := List.mem_filter.1 mem
    obtain ⟨u, there, same⟩ := alike.onto v inside
    exact ⟨u, List.mem_filter.2 ⟨there, (kept same).trans keeps⟩, same⟩
  · exact alike.sound u (List.mem_filter.1 mem).1 v (List.mem_filter.1 mem').1

end Utxo

/-! ### Collateral -/

namespace Collateral

variable {target coinsPerByte : Amount} {returnAddress : Address}

/-- Collateral of one reference, with one return. -/
structure Choice.Same (c c' : Choice) : Prop where
  ref : c.input.ref = c'.input.ref
  returned : c.returned = c'.returned
  total : c.total = c'.total

theorem agree_serve? {u v : Utxo} (same : u.Same v) :
    Agree (Option.Rel Choice.Same) (serve? target returnAddress coinsPerByte u)
      (serve? target returnAddress coinsPerByte v) := by
  have coins : u.coin = v.coin := (eq_of_value_beq same.value).1
  unfold serve?
  rw [coins]
  split
  · exact .ok .none
  · split
    · exact .ok (.some ⟨same.ref, rfl, rfl⟩)
    · refine .bind_same fun required => ?_
      split
      · exact .ok .none
      · exact .ok (.some ⟨same.ref, rfl, rfl⟩)

theorem agree_firstServing {l₁ l₂ : List Utxo} (same : List.Forall₂ Utxo.Same l₁ l₂) :
    Agree Choice.Same (firstServing target returnAddress coinsPerByte l₁)
      (firstServing target returnAddress coinsPerByte l₂) := by
  induction same with
  | nil => exact .error _
  | cons first _ ih =>
    refine (agree_serve? first).bind ?_
    rintro _ _ (equal | _)
    · exact .ok equal
    · exact ih

theorem agree_select {pool pool' fallback fallback' : List Utxo} (pools : SamePool pool pool')
    (used : SortedSet TxIn) (same : SameList fallback fallback') :
    Agree Choice.Same (select pool used fallback target returnAddress coinsPerByte)
      (select pool' used fallback' target returnAddress coinsPerByte) := by
  have candidates : SameList (Selection.candidates pool used) (Selection.candidates pool' used) :=
    Selection.ranked_samePool (pools.filter fun _ => rfl)
  exact agree_firstServing (sameList_iff.1 ((candidates.reverse.append same).filter fun _ => rfl))

end Collateral

namespace Builder

variable {b : Builder} {chain : Chain} {ground : Ground} {pool : List Utxo}

/-! ### One build -/

theorem addCollateralTo_samePool (pools : SamePool ground.pool pool) (body : TxBody)
    (maxFee : Amount) {inputs inputs' : List Utxo} (same : SameList inputs inputs') :
    b.addCollateralTo body ground maxFee inputs =
      b.addCollateralTo body { ground with pool } maxFee inputs' := by
  refine Agree.eq ?_
  unfold addCollateralTo
  split
  · refine .bind_same fun target => ?_
    dsimp only
    rw [← same.refs]
    refine (Agree.mapError (Collateral.agree_select pools _ (same.filter fun _ => rfl)) _).bind ?_
    rintro choice choice' ⟨ref, returned, total⟩
    rw [ref, returned, total]
    exact .of_eq rfl
  · exact .of_eq rfl

theorem agree_selectInputs (pools : SamePool ground.pool pool) (draft : Draft) (maxFee : Amount) :
    Agree SameList (b.selectInputs draft ground maxFee)
      (b.selectInputs draft { ground with pool } maxFee) := by
  refine .bind_same fun extra => .bind_same fun committed => .bind_same fun demand =>
    .bind_same fun required => ?_
  refine (Selection.agree_selectFrom (pools.filter fun _ => rfl) required committed).bind ?_
  intro picks picks' same
  exact .ok (SameList.append rfl same)

theorem agree_buildWith (pools : SamePool ground.pool pool) (redeemers : PendingRedeemers) :
    Agree Balanced.Same (b.buildWith chain ground redeemers)
      (b.buildWith chain { ground with pool } redeemers) := by
  refine .bind_same fun draft => .bind_same fun maxFee => ?_
  refine (agree_selectInputs pools draft maxFee).bind fun inputs inputs' same => ?_
  dsimp only
  rw [addCollateralTo_samePool pools draft.body maxFee same]
  split
  · refine .bind_same fun body => ?_
    exact Balancer.agree_balance (pools.filter fun _ => rfl) same _
  · exact Balancer.agree_balance (pools.filter fun _ => rfl) same _

theorem trial_samePool (pools : SamePool ground.pool pool) :
    b.trial chain ground = b.trial chain { ground with pool } := by
  refine Agree.eq ((agree_buildWith pools b.redeemers).bind ?_)
  rintro ⟨tx, inputs⟩ ⟨_, inputs'⟩ ⟨rfl, _⟩
  exact .of_eq rfl

theorem settledRedeemers_samePool (pools : SamePool ground.pool pool) :
    b.settledRedeemers chain ground = b.settledRedeemers chain { ground with pool } := by
  unfold settledRedeemers
  rw [trial_samePool pools]

/-! ### The pool -/

theorem subset_addOutputOnce (utxos : List Utxo) (u : Utxo) : utxos ⊆ addOutputOnce utxos u := by
  unfold addOutputOnce
  split
  · exact List.Subset.refl _
  · exact List.subset_append_left _ _

theorem exists_mem_addOutputOnce (utxos : List Utxo) (u : Utxo) :
    ∃ v ∈ addOutputOnce utxos u, v.ref = u.ref := by
  unfold addOutputOnce
  split
  · rename_i held
    obtain ⟨v, mem, same⟩ := List.any_eq_true.1 held
    exact ⟨v, mem, of_decide_eq_true same⟩
  · exact ⟨u, List.mem_append_right _ (.head _), rfl⟩

theorem exists_mem_pool {utxos start : List Utxo} {u : Utxo} (mem : u ∈ start ∨ u ∈ utxos) :
    ∃ v ∈ utxos.foldl addOutputOnce start, v.ref = u.ref := by
  induction utxos generalizing start u with
  | nil => exact ⟨u, mem.resolve_right List.not_mem_nil, rfl⟩
  | cons w rest ih =>
    rcases mem with before | listed
    · exact ih (.inl (subset_addOutputOnce start w before))
    · rcases List.mem_cons.1 listed with rfl | later
      · obtain ⟨v, added, same⟩ := exists_mem_addOutputOnce start u
        obtain ⟨v', inside, same'⟩ := ih (.inl added)
        exact ⟨v', inside, same'.trans same⟩
      · exact ih (.inr later)

theorem samePool_addOutputOnce {p q : List Utxo} (pools : SamePool p q) (u : Utxo) :
    SamePool (addOutputOnce p u) (addOutputOnce q u) where
  distinct := nodup_addOutputOnce pools.distinct u
  perm := by
    have held : p.any (·.ref = u.ref) = q.any (·.ref = u.ref) := by
      have := pools.perm.any_eq (f := fun v => decide (v.ref = u.ref))
      rwa [List.any_map, List.any_map] at this
    unfold addOutputOnce
    rw [← held]
    split
    · exact pools.perm
    · rw [List.map_append, List.map_append]
      exact pools.perm.append_right _

theorem mem_map_plain_pool {l : List Utxo} (sound : ∀ u ∈ l, ∀ v ∈ l, u.ref = v.ref → u.Same v)
    (x : Utxo) : x ∈ (l.foldl addOutputOnce []).map plain ↔ x ∈ l.map plain := by
  simp only [List.mem_map]
  constructor
  · rintro ⟨u, mem, rfl⟩
    exact ⟨u, (mem_pool mem).resolve_left List.not_mem_nil, rfl⟩
  · rintro ⟨u, mem, rfl⟩
    obtain ⟨v, kept, refs⟩ : ∃ v ∈ l.foldl addOutputOnce [], v.ref = u.ref :=
      exists_mem_pool (.inr mem)
    have there := (mem_pool kept).resolve_left List.not_mem_nil
    exact ⟨v, kept, plain_eq_iff.2 (sound v there u mem refs)⟩

/-- What is loaded in any order and number makes one pool. -/
theorem samePool_pool {loaded loaded' : List Utxo} (alike : Alike loaded loaded')
    (fetched : List Utxo) :
    SamePool ((loaded ++ fetched).foldl addOutputOnce [])
      ((loaded' ++ fetched).foldl addOutputOnce []) := by
  rw [List.foldl_append, List.foldl_append]
  have start : SamePool (loaded.foldl addOutputOnce []) (loaded'.foldl addOutputOnce []) := by
    have once (l : List Utxo) : ((l.foldl addOutputOnce []).map ref).Nodup :=
      nodup_pool List.nodup_nil
    refine ⟨once loaded, (List.perm_ext_iff_of_nodup (nodup_map_plain (once loaded))
      (nodup_map_plain (once loaded'))).2 fun x => ?_⟩
    rw [mem_map_plain_pool alike.sound, alike.mem_iff,
      mem_map_plain_pool fun u mem v mem' => alike.sound' mem mem']
  generalize loaded.foldl addOutputOnce [] = p at start ⊢
  generalize loaded'.foldl addOutputOnce [] = q at start ⊢
  induction fetched generalizing p q with
  | nil => exact start
  | cons u rest ih => exact ih _ _ (samePool_addOutputOnce start u)

variable {loaded : List Utxo}

theorem agree_loadPool (alike : Alike b.loadedUtxos loaded) :
    Agree SamePool (b.loadPool chain) ({ b with loadedUtxos := loaded }.loadPool chain) := by
  have sources : b.sources = { b with loadedUtxos := loaded }.sources := by
    unfold sources
    rw [alike.isEmpty]
  unfold loadPool
  rw [← sources]
  refine .bind_same fun fetched => .ok ?_
  dsimp only
  rw [Balancer.withoutRefs, Balancer.withoutRefs, List.filter_append, List.filter_append]
  exact samePool_pool (alike.filter fun _ => rfl) _

theorem agree_ground (alike : Alike b.loadedUtxos loaded) :
    Agree (fun ground other => ∃ pool, SamePool ground.pool pool ∧ other = { ground with pool })
      (b.ground chain) ({ b with loadedUtxos := loaded }.ground chain) := by
  refine .bind_same fun params => .bind_same fun changeAddress => ?_
  refine (agree_loadPool alike).bind fun pool pool' pools => ?_
  exact .ok ⟨pool', pools, rfl⟩

/-! ### The whole build -/

theorem agree_build (chain : Chain) (alike : Alike b.loadedUtxos loaded) :
    Agree Balanced.Same (b.build chain) ({ b with loadedUtxos := loaded }.build chain) := by
  refine ((agree_ground alike).mapError _).bind ?_
  rintro ground _ ⟨pool, pools, rfl⟩
  rw [settledRedeemers_samePool pools]
  exact .bind_same fun redeemers => agree_buildWith pools redeemers

theorem evaluated?_alike (alike : Alike b.loadedUtxos loaded) :
    b.evaluated? chain = { b with loadedUtxos := loaded }.evaluated? chain := by
  unfold evaluated?
  rcases (agree_ground alike).elim with
    ⟨_, failed, failed'⟩ | ⟨_, _, grounded, grounded', pool, pools, rfl⟩
  · rw [failed, failed']
    rfl
  · rw [grounded, grounded']
    dsimp only
    rw [trial_samePool pools]
    rfl

/-! ### Finalizing -/

/-- One stage, where inputs are equal in order. -/
inductive SameStage : Stage → Stage → Prop where
  | collecting : SameStage .collecting .collecting
  | finalized (tx : Transaction) {inputs inputs' : List Utxo} (same : SameList inputs inputs') :
      SameStage (.finalized tx inputs) (.finalized tx inputs')
  | failed : SameStage .failed .failed

theorem SameStage.refl (stage : Stage) : SameStage stage stage := by
  cases stage with
  | collecting => exact .collecting
  | finalized tx inputs => exact .finalized tx rfl
  | failed => exact .failed

theorem encodeTx_sameStage {b' : Builder} (same : SameStage b.stage b'.stage) :
    b.encodeTx = b'.encodeTx := by
  have tx : b.tx = b'.tx := by
    unfold Builder.tx
    generalize b.stage = stage at same ⊢
    generalize b'.stage = stage' at same ⊢
    cases same <;> rfl
  rw [encodeTx, encodeTx, tx]

theorem agree_sortedInputs {b' : Builder} (same : SameStage b.stage b'.stage) :
    Agree (List.Forall₂ Utxo.Same) b.sortedInputs b'.sortedInputs := by
  have sorted (l : List Utxo) : (l.mergeSort fun u v => (compare u.ref v.ref).isLE).map plain =
      (l.map plain).mergeSort fun u v => (compare u.ref v.ref).isLE :=
    List.map_mergeSort fun _ _ _ _ => rfl
  unfold sortedInputs
  generalize b.stage = stage at same ⊢
  generalize b'.stage = stage' at same ⊢
  cases same with
  | collecting | failed => exact .error _
  | finalized tx same =>
    refine .ok (sameList_iff.1 ?_)
    rw [SameList, sorted, sorted, same]

theorem finalize_alike (chain : Chain) (alike : Alike b.loadedUtxos loaded) :
    let done := b.finalize chain
    let done' := { b with loadedUtxos := loaded }.finalize chain
    done.1 = done'.1 ∧ SameStage done.2.stage done'.2.stage := by
  let other := { b with loadedUtxos := loaded }
  show (b.finalize chain).1 = (other.finalize chain).1 ∧
    SameStage (b.finalize chain).2.stage (other.finalize chain).2.stage
  cases stage : b.stage with
  | finalized tx inputs =>
    rw [finalize_of_finalized stage, finalize_of_finalized (b := other) stage]
    exact ⟨rfl, .refl b.stage⟩
  | failed =>
    rw [finalize_of_failed stage, finalize_of_failed (b := other) stage]
    exact ⟨rfl, .refl b.stage⟩
  | collecting =>
    rw [finalize_of_collecting stage, finalize_of_collecting (b := other) stage]
    rcases (agree_build chain alike).elim with
      ⟨e, failed, failed'⟩ | ⟨⟨tx, inputs⟩, ⟨_, inputs'⟩, built, built', rfl, same⟩
    · rw [failed, show other.build chain = _ from failed']
      cases e with
      | overflow => exact ⟨rfl, .refl b.stage⟩
      | refused error => exact ⟨rfl, .failed⟩
    · rw [built, show other.build chain = _ from built']
      exact ⟨rfl, .finalized tx same⟩

/-- Two builders that differ in the order and the number of their loaded outputs alone finalize
alike: with one transaction and equal inputs in one order, or with one error. The evaluator is
asked about the same bytes. -/
theorem finalize_order (chain : Chain) (alike : Alike b.loadedUtxos loaded) :
    let done := b.finalize chain
    let done' := { b with loadedUtxos := loaded }.finalize chain
    done.1 = done'.1 ∧ done.2.encodeTx = done'.2.encodeTx ∧
      Agree (List.Forall₂ Utxo.Same) done.2.sortedInputs done'.2.sortedInputs ∧
      b.evaluated? chain = { b with loadedUtxos := loaded }.evaluated? chain := by
  intro done done'
  obtain ⟨outcomes, stages⟩ := finalize_alike chain alike
  exact ⟨outcomes, encodeTx_sameStage stages, agree_sortedInputs stages, evaluated?_alike alike⟩

theorem finalize_order_repeated :
    let address : Address := .enterprise .testnet (.key .zero)
    let read : Utxo := ⟨⟨.zero, 5⟩, { address, value := .ofCoin 4000000 }⟩
    let spare : Utxo := ⟨⟨.zero, 0⟩, { address, value := .ofCoin 9000000 }⟩
    let chain := FixedChain.toChain {}
    let loading (loaded : List Utxo) := run chain {} [
      .edit (.loadUtxos loaded), .edit (.addReferenceInput read), .edit (.setChangeAddress address),
      .edit (.addPayment { address, lovelace := 2000000 })]
    let done := (loading [read, spare]).finalize chain
    let done' := (loading [spare.plain, read, spare]).finalize chain
    ∃ tx, done.1 = .ok tx ∧ done'.1 = .ok tx ∧ done.2.encodeTx = done'.2.encodeTx := by
  intro address read spare chain loading done done'
  have alike : Alike (loading [read, spare]).loadedUtxos [spare.plain, read, spare] := by
    show Alike [read, spare] [spare.plain, read, spare]
    refine ⟨fun u mem => ⟨u, .tail _ mem, plain_eq_iff.1 rfl⟩, fun v mem => ?_, ?_⟩
    · rcases List.mem_cons.1 mem with rfl | listed
      · exact ⟨spare, .tail _ (.head _), plain_eq_iff.1 rfl⟩
      · exact ⟨v, listed, plain_eq_iff.1 rfl⟩
    · intro u mem v mem' refs
      have apart : ([read, spare].map Utxo.ref).Nodup := by decide
      obtain rfl := List.inj_on_of_nodup_map apart mem mem' refs
      exact plain_eq_iff.1 rfl
  obtain ⟨tx, finalized⟩ := ok_of_isSome
    (show done.1.toOption.isSome = true by decide +kernel)
  obtain ⟨same, bytes, _⟩ := finalize_order chain alike
  exact ⟨tx, finalized, same.symm.trans finalized, bytes⟩

end Builder

end ConwayTx
