import ConwayTx.Proofs.Builder.Placement
import ConwayTx.Proofs.Redeemer.Designation

/-!
# Evaluated budgets

Budgets are evaluated on a trial transaction and reach the final one through the targets that their
pointers designate there (`finalize_budgets`). The trial is what the builder comes to without
estimation, and may have other inputs than the final transaction.
-/

namespace ConwayTx.Builder

open Outcome

/-! ### Budgets by target -/

theorem find?_budget (redeemers : PendingRedeemers) (target : RedeemerTarget) (units : ExUnits)
    (t : RedeemerTarget) :
    (budget redeemers target units).find? t =
      if target = t then (redeemers.find? t).map fun r => { r with exUnits := units }
      else redeemers.find? t := by
  unfold budget
  split
  · rename_i redeemer found
    rw [SortedMap.find?_insert]
    split_ifs with here there there
    · rw [here, found]
      rfl
    · exact absurd here.symm there
    · exact absurd there.symm here
    · rfl
  · rename_i missing
    split_ifs with here
    · rw [← here, missing]
      rfl
    · rfl

/-- With an evaluated budget and the margin on top. -/
def granted (b : Builder) (units : ExUnits) (r : Redeemer) : Redeemer :=
  { r with exUnits := units.withMargin b.config.exUnitsMarginPercent }

/-- One evaluated budget, for the target that its pointer leads to. -/
def grant (b : Builder) (layout : RedeemerLayout) (redeemers : PendingRedeemers)
    (e : RedeemerPointer × ExUnits) : PendingRedeemers :=
  match layout.target? e.1 with
  | some target => budget redeemers target (e.2.withMargin b.config.exUnitsMarginPercent)
  | none => redeemers

theorem find?_grant (b : Builder) (layout : RedeemerLayout) (redeemers : PendingRedeemers)
    (e : RedeemerPointer × ExUnits) (target : RedeemerTarget) :
    (b.grant layout redeemers e).find? target =
      if layout.target? e.1 = some target then (redeemers.find? target).map (b.granted e.2)
      else redeemers.find? target := by
  unfold grant
  split
  · rename_i other leads
    simp only [find?_budget, leads, Option.some.injEq]
    rfl
  · rename_i nowhere
    rw [nowhere]
    rfl

/-- Of evaluated budgets, those whose pointers lead to the target. -/
def evaluatedFor (layout : RedeemerLayout) (evaluation : Evaluation) (target : RedeemerTarget) :
    Evaluation :=
  evaluation.filter fun pointer _ => layout.target? pointer = some target

theorem find?_grants (b : Builder) (layout : RedeemerLayout)
    (entries : List (RedeemerPointer × ExUnits)) (redeemers : PendingRedeemers)
    (target : RedeemerTarget) :
    (entries.foldl (b.grant layout) redeemers).find? target =
      (entries.filter fun e => layout.target? e.1 = some target).foldl
        (fun r e => r.map (b.granted e.2)) (redeemers.find? target) := by
  induction entries generalizing redeemers with
  | nil => rfl
  | cons e rest ih =>
    rw [List.foldl_cons, ih, find?_grant, List.filter_cons]
    by_cases leads : layout.target? e.1 = some target <;> simp [leads]

/-- Each target is given the budgets evaluated for it, one after the other. -/
theorem find?_withBudgets (b : Builder) (body : TxBody) (evaluation : Evaluation)
    (target : RedeemerTarget) :
    (b.withBudgets body evaluation).find? target =
      (evaluatedFor (.ofBody body) evaluation target).entries.foldl
        (fun r e => r.map (b.granted e.2)) (b.redeemers.find? target) :=
  b.find?_grants (.ofBody body) evaluation.entries b.redeemers target

theorem evaluatedFor_eq {layout : RedeemerLayout} {evaluation evaluation' : Evaluation}
    {target : RedeemerTarget}
    (agree : ∀ p, layout.target? p = some target → evaluation'.find? p = evaluation.find? p) :
    evaluatedFor layout evaluation' target = evaluatedFor layout evaluation target := by
  refine SortedMap.eq_of_find? fun p => ?_
  rw [evaluatedFor, evaluatedFor, SortedMap.find?_filter, SortedMap.find?_filter]
  by_cases leads : layout.target? p = some target
  · rw [agree p leads]
  · simp [leads]

theorem withBudgets_eq {b : Builder} {body : TxBody} {evaluation evaluation' : Evaluation}
    (agree : ∀ p, ((RedeemerLayout.ofBody body).target? p).isSome →
      evaluation'.find? p = evaluation.find? p) :
    b.withBudgets body evaluation' = b.withBudgets body evaluation := by
  refine SortedMap.eq_of_find? fun target => ?_
  rw [find?_withBudgets, find?_withBudgets, evaluatedFor_eq fun p leads => agree p (by rw [leads]; rfl)]

theorem find?_withBudgets_of_none {b : Builder} {body : TxBody} {evaluation : Evaluation}
    {target : RedeemerTarget}
    (none : ∀ p u, evaluation.find? p = some u → (RedeemerLayout.ofBody body).target? p ≠ some target) :
    (b.withBudgets body evaluation).find? target = b.redeemers.find? target := by
  have empty : (evaluatedFor (.ofBody body) evaluation target).entries = [] := by
    refine List.filter_eq_nil_iff.2 ?_
    rintro ⟨p, u⟩ mem leads
    exact none p u (SortedMap.find?_eq_some_iff.2 mem) (of_decide_eq_true leads)
  rw [find?_withBudgets, empty]
  rfl

theorem find?_withBudgets_of_one {b : Builder} {body : TxBody} {evaluation : Evaluation}
    {target : RedeemerTarget} {p : RedeemerPointer} {u : ExUnits}
    (reported : evaluation.find? p = some u)
    (leads : (RedeemerLayout.ofBody body).target? p = some target)
    (only : ∀ q v, evaluation.find? q = some v →
      (RedeemerLayout.ofBody body).target? q = some target → q = p) :
    (b.withBudgets body evaluation).find? target = (b.redeemers.find? target).map (b.granted u) := by
  have single : (evaluatedFor (.ofBody body) evaluation target).entries = [(p, u)] := by
    refine List.perm_singleton.1 ((List.perm_ext_iff_of_nodup ?_ (List.nodup_singleton _)).2 ?_)
    · exact .of_map _ (SortedMap.nodup_keys _)
    · rintro ⟨q, v⟩
      rw [← SortedMap.find?_eq_some_iff, evaluatedFor, SortedMap.find?_filter,
        Option.filter_eq_some_iff, decide_eq_true_iff, List.mem_singleton]
      constructor
      · rintro ⟨found, there⟩
        obtain rfl := only q v found there
        rw [Option.some.inj (found.symm.trans reported)]
      · rintro ⟨⟩
        exact ⟨reported, leads⟩
  rw [find?_withBudgets, single]
  rfl

theorem find?_withBudgets_data {b : Builder} {target : RedeemerTarget} {redeemer : Redeemer}
    (attached : b.redeemers.find? target = some redeemer) (body : TxBody) (evaluation : Evaluation) :
    ∃ settled, (b.withBudgets body evaluation).find? target = some settled ∧
      settled.data = redeemer.data := by
  have same := congrArg (SortedMap.find? · target) (b.data_withBudgets body evaluation)
  simp only [SortedMap.find?_mapValues, attached, Option.map_some] at same
  exact Option.map_eq_some_iff.1 same

/-! ### The trial -/

theorem build_eq {b : Builder} {chain : Chain} {ground : Ground}
    (grounded : b.ground chain = .ok ground) :
    b.build chain = b.settledRedeemers chain ground >>= b.buildWith chain ground := by
  rw [build, grounded]
  rfl

/-- Budgets are evaluated on the build that has the caller's. -/
theorem settledRedeemers_ok {b : Builder} {chain : Chain} {ground : Ground}
    {redeemers : PendingRedeemers} (estimates : b.estimates = true)
    (h : b.settledRedeemers chain ground = .ok redeemers) :
    ∃ balanced bytes evaluation, b.buildWith chain ground b.redeemers = .ok balanced ∧
      balanced.tx.encode = .ok bytes ∧ chain.evaluate bytes = .ok evaluation ∧
      redeemers = b.withBudgets balanced.tx.body evaluation := by
  unfold settledRedeemers at h
  rw [if_pos estimates] at h
  obtain ⟨trial, tried, h⟩ := bind_ok h
  obtain ⟨balanced, built, tried⟩ := bind_ok tried
  obtain ⟨bytes, encodes, tried⟩ := bind_ok tried
  obtain rfl := pure_ok tried
  obtain ⟨evaluation, evaluated, h⟩ := bind_ok h
  obtain rfl := pure_ok h
  exact ⟨balanced, bytes, evaluation, built, mapError_ok (mapError_ok encodes),
    ask_ok (mapError_ok evaluated), rfl⟩

theorem settledRedeemers_eq {b : Builder} {chain : Chain} {ground : Ground} {balanced : Balanced}
    {bytes : Bytes} {evaluation : Evaluation} (estimates : b.estimates = true)
    (built : b.buildWith chain ground b.redeemers = .ok balanced)
    (encodes : balanced.tx.encode = .ok bytes) (evaluated : chain.evaluate bytes = .ok evaluation) :
    b.settledRedeemers chain ground = .ok (b.withBudgets balanced.tx.body evaluation) := by
  have tried : b.trial chain ground = .ok ⟨balanced.tx.body, bytes⟩ := by
    rw [trial, built]
    show ((balanced.tx.encode : Except BuildError Bytes) : Except Failure Bytes) >>= _ = _
    rw [encodes]
    rfl
  rw [settledRedeemers, if_pos estimates, tried]
  show ((ChainTask.evaluate.ask (chain.evaluate bytes) : Except BuildError Evaluation) :
    Except Failure Evaluation) >>= _ = _
  rw [evaluated]
  rfl

/-- The trial is what comes out without estimation. -/
theorem finalize_disableEstimation {b : Builder} {chain : Chain} {ground : Ground}
    {balanced : Balanced} (stage : b.stage = .collecting) (grounded : b.ground chain = .ok ground)
    (built : b.buildWith chain ground b.redeemers = .ok balanced) :
    (b.disableEstimation.finalize chain).1 = .ok balanced.tx := by
  have off : b.disableEstimation.settledRedeemers chain ground = .ok b.redeemers := rfl
  have done : b.disableEstimation.build chain = .ok balanced := by
    rw [@build_eq b.disableEstimation chain ground grounded, off]
    exact built
  have open' : b.disableEstimation.stage = .collecting := stage
  rw [finalize, open', done]

/-- Of an evaluation, only the budgets that it leads to matter. -/
theorem finalize_evaluate {b : Builder} {chain : Chain} {ground : Ground} {balanced : Balanced}
    {bytes : Bytes} {evaluation evaluation' : Evaluation} {evaluate : Bytes → Except String Evaluation}
    (estimates : b.estimates = true) (grounded : b.ground chain = .ok ground)
    (built : b.buildWith chain ground b.redeemers = .ok balanced)
    (encodes : balanced.tx.encode = .ok bytes)
    (evaluated : chain.evaluate bytes = .ok evaluation) (answer : evaluate bytes = .ok evaluation')
    (same : b.withBudgets balanced.tx.body evaluation' = b.withBudgets balanced.tx.body evaluation) :
    b.finalize { chain with evaluate } = b.finalize chain := by
  have settled : b.settledRedeemers { chain with evaluate } ground =
      b.settledRedeemers chain ground := by
    rw [settledRedeemers_eq estimates built encodes evaluated, ← same]
    exact @settledRedeemers_eq b { chain with evaluate } _ _ _ _ estimates built encodes answer
  have rebuilt : b.build { chain with evaluate } = b.build chain := by
    rw [build_eq grounded, ← settled]
    exact @build_eq b { chain with evaluate } _ grounded
  unfold finalize
  rw [rebuilt]

/-! ### The final transaction -/

/-- Evaluated budgets reach the redeemers they are meant for. A redeemer whose target one evaluated
pointer designates in the trial body has that budget, with the margin, where the final body has the
target; one that no pointer designates keeps its own. Data stay as they are, and an evaluation that
agrees on the pointers of the trial's targets leads to the same. -/
theorem finalize_budgets {b : Builder} {chain : Chain} {tx : Transaction} (reachable : Reachable b)
    (estimates : b.estimates = true) (h : (b.finalize chain).1 = .ok tx) :
    ∃ trial bytes evaluation trialBody body,
      (b.disableEstimation.finalize chain).1 = .ok trial ∧ trial.encode = .ok bytes ∧
      chain.evaluate bytes = .ok evaluation ∧ trial.body.toCbor = .ok trialBody ∧
      tx.body.toCbor = .ok body ∧
      (∀ target redeemer, b.redeemers.find? target = some redeemer →
        ∃ pointer units, (RedeemerLayout.ofBody tx.body).pointer? target = some pointer ∧
          Designates body pointer target ∧
          tx.witnesses.redeemers.find? pointer = some ⟨redeemer.data, units⟩ ∧
          (∀ p u, evaluation.find? p = some u → Designates trialBody p target →
            (∀ q v, evaluation.find? q = some v → Designates trialBody q target → q = p) →
            units = u.withMargin b.config.exUnitsMarginPercent) ∧
          ((∀ p u, evaluation.find? p = some u → ¬Designates trialBody p target) →
            units = redeemer.exUnits)) ∧
      ∀ (evaluate : Bytes → Except String Evaluation) (evaluation' : Evaluation),
        evaluate bytes = .ok evaluation' →
        (∀ p target, Designates trialBody p target → evaluation'.find? p = evaluation.find? p) →
        b.finalize { chain with evaluate } = b.finalize chain := by
  obtain ⟨body, ground, redeemers, encodes, _, canonical, small, assigned, grounded, settled⟩ :=
    finalize_settles reachable h
  obtain ⟨balanced, bytes, evaluation, built, written, evaluated, rfl⟩ :=
    settledRedeemers_ok estimates settled
  obtain ⟨_, stage, _⟩ := finalize_ok h
  have tried := finalize_disableEstimation stage grounded built
  have reachable' : Reachable b.disableEstimation := reachable.step chain (.edit .disableEstimation)
  obtain ⟨trialBody, _, _, encodes', _, canonical', _⟩ := finalize_settles reachable' tried
  have leads (p : RedeemerPointer) (target : RedeemerTarget) :=
    @RedeemerLayout.designates_iff balanced.tx.body trialBody p target encodes' canonical'
  refine ⟨balanced.tx, bytes, evaluation, trialBody, body, tried, written, evaluated, encodes',
    encodes, ?_, ?_⟩
  · intro target redeemer attached
    obtain ⟨settled, found, data⟩ := find?_withBudgets_data attached balanced.tx.body evaluation
    obtain ⟨pointer, placed, held⟩ := RedeemerLayout.find?_of_assign small assigned found
    refine ⟨pointer, settled.exUnits, placed,
      RedeemerLayout.designates_of_pointer? encodes canonical small placed, ?_, ?_, ?_⟩
    · rw [held, ← data]
    · intro p u reported there only
      rw [find?_withBudgets_of_one reported ((leads p target).1 there) fun q v other meant =>
        only q v other ((leads q target).2 meant), attached] at found
      exact congrArg Redeemer.exUnits (Option.some.inj found).symm
    · intro nowhere
      rw [find?_withBudgets_of_none fun p u other meant =>
        nowhere p u other ((leads p target).2 meant), attached] at found
      exact congrArg Redeemer.exUnits (Option.some.inj found).symm
  · intro evaluate evaluation' answer agree
    refine finalize_evaluate estimates grounded built written evaluated answer ?_
    refine withBudgets_eq fun p there => ?_
    obtain ⟨target, found⟩ := Option.isSome_iff_exists.1 there
    exact agree p target ((leads p target).2 found)

theorem finalize_budgets_moved :
    let address : Address := .enterprise .testnet (.key .zero)
    let script : Address := .enterprise .testnet (.script .zero)
    let evaluation : Evaluation :=
      .ofList [(⟨.spend, 0⟩, ⟨12000000, 9000000000⟩), (⟨.cert, 0⟩, ⟨5, 5⟩)]
    let chain := FixedChain.toChain {
      utxos := [⟨⟨.zero, 0⟩, { address, value := .ofCoin 2000000 }⟩]
      evaluator := some fun _ => .ok evaluation }
    let b := run chain {} [
      .edit (.setChangeAddress address), .edit (.addInputAddress address),
      .edit (.collectFrom ⟨⟨.zero, 1⟩, { address := script, value := .ofCoin 2900000 }⟩
        ⟨.integer 1, ⟨1000, 1000⟩⟩),
      .edit (.addCollateral ⟨⟨.zero, 3⟩, { address, value := .ofCoin 5000000 }⟩),
      .edit (.addPayment { address, lovelace := 1000000 })]
    ∃ tx trial trialBody body, (b.finalize chain).1 = .ok tx ∧
      (b.disableEstimation.finalize chain).1 = .ok trial ∧ trial.body.toCbor = .ok trialBody ∧
      tx.body.toCbor = .ok body ∧ Designates trialBody ⟨.spend, 0⟩ (.spend ⟨.zero, 1⟩) ∧
      Designates body ⟨.spend, 1⟩ (.spend ⟨.zero, 1⟩) ∧
      tx.witnesses.redeemers.find? ⟨.spend, 1⟩ = some ⟨.integer 1, ⟨14400000, 10800000000⟩⟩ := by
  intro address script evaluation chain b
  obtain ⟨tx, done⟩ := ok_of_isSome
    (show (b.finalize chain).1.toOption.isSome = true by decide +kernel)
  obtain ⟨trial, bytes, reported, trialBody, body, tried, _, evaluated, encodes', encodes, places, _⟩ :=
    finalize_budgets (Reachable.fresh.run chain _) (show b.estimates = true by decide +kernel) done
  obtain rfl : evaluation = reported := Except.ok.inj evaluated
  have first : (b.disableEstimation.finalize chain).1.toOption.map (·.body.inputs.keys[0]?) =
      some (some ⟨.zero, 1⟩) := by decide +kernel
  rw [tried] at first
  have here : Designates trialBody ⟨.spend, 0⟩ (.spend ⟨.zero, 1⟩) :=
    ⟨rfl, TxBody.input_at encodes' (Option.some.inj first)⟩
  have only (q : RedeemerPointer) (v : ExUnits) (found : evaluation.find? q = some v)
      (there : Designates trialBody q (.spend ⟨.zero, 1⟩)) : q = ⟨.spend, 0⟩ := by
    have listed : (q, v) ∈ [(⟨.spend, 0⟩, ⟨12000000, 9000000000⟩), (⟨.cert, 0⟩, ⟨5, 5⟩)] :=
      SortedMap.find?_eq_some_iff.1 found
    simp only [List.mem_cons, Prod.mk.injEq, List.not_mem_nil, or_false] at listed
    rcases listed with ⟨rfl, _⟩ | ⟨rfl, _⟩
    · rfl
    · cases there.1
  obtain ⟨pointer, units, placed, designated, held, one, _⟩ :=
    places (.spend ⟨.zero, 1⟩) ⟨.integer 1, ⟨1000, 1000⟩⟩ (by decide +kernel)
  have last : (b.finalize chain).1.toOption.map (fun tx =>
      (RedeemerLayout.ofBody tx.body).pointer? (.spend ⟨.zero, 1⟩)) = some (some ⟨.spend, 1⟩) := by
    decide +kernel
  rw [done] at last
  obtain rfl : pointer = ⟨.spend, 1⟩ :=
    Option.some.inj (placed.symm.trans (Option.some.inj last))
  obtain rfl := one ⟨.spend, 0⟩ ⟨12000000, 9000000000⟩ (by decide) here only
  have margin : b.config.exUnitsMarginPercent = 20 := rfl
  rw [margin] at held
  exact ⟨tx, trial, trialBody, body, done, tried, encodes', encodes, here, designated, held⟩

end ConwayTx.Builder
