import ConwayTx.Chain.Fixed
import ConwayTx.Proofs.Builder.Build
import ConwayTx.Proofs.Transaction

/-!
# Stages along a history

A builder leaves the collecting stage once (`leads_step`, `leads_replay`). A failed one stays failed;
a finalized one keeps its transaction and its inputs, and takes on witnesses of new keys only
(`finalized_once`).
-/

namespace ConwayTx

open Outcome

/-! ### Witnesses that are added -/

/-- One witness a key. -/
def KeyWitness.Distinct (keys : List KeyWitness) : Prop := (keys.map KeyWitness.key).Nodup

instance (keys : List KeyWitness) : Decidable (KeyWitness.Distinct keys) :=
  inferInstanceAs (Decidable (keys.map KeyWitness.key).Nodup)

namespace Transaction

/-- The same transaction with more witnesses at its end. Where each key had one, each still has. -/
def SignedAs (tx signed : Transaction) : Prop :=
  ∃ added, signed = tx.withKeys (tx.witnesses.keys ++ added) ∧
    (KeyWitness.Distinct tx.witnesses.keys → KeyWitness.Distinct (tx.witnesses.keys ++ added))

theorem SignedAs.refl (tx : Transaction) : tx.SignedAs tx :=
  ⟨[], by rw [List.append_nil]; rfl, fun distinct => by rwa [List.append_nil]⟩

theorem SignedAs.trans {tx mid signed : Transaction} (first : tx.SignedAs mid)
    (second : mid.SignedAs signed) : tx.SignedAs signed := by
  obtain ⟨early, rfl, distinct⟩ := first
  obtain ⟨late, rfl, distinct'⟩ := second
  refine ⟨early ++ late, ?_, fun given => ?_⟩
  · rw [← List.append_assoc]
    rfl
  · rw [← List.append_assoc]
    exact distinct' (distinct given)

theorem signedAs_addKey (tx : Transaction) (witness : KeyWitness) :
    tx.SignedAs { tx with witnesses := tx.witnesses.addKey witness } := by
  unfold WitnessSet.addKey
  split
  · exact .refl tx
  · rename_i new
    refine ⟨[witness], rfl, fun distinct => ?_⟩
    rw [KeyWitness.Distinct, List.map_append, List.nodup_append]
    refine ⟨distinct, List.nodup_singleton _, fun key mem key' last same => new ?_⟩
    obtain ⟨held, inside, rfl⟩ := List.mem_map.1 mem
    obtain rfl : key' = witness.key := by simpa using last
    exact List.any_eq_true.2 ⟨held, inside, by simpa using same⟩

end Transaction

namespace Builder

/-! ### One operation -/

/-- What a stage may become: collecting ends in any way, the other stages are not left. -/
inductive Leads : Stage → Stage → Prop where
  | collecting (next : Stage) : Leads .collecting next
  | finalized {tx signed : Transaction} (inputs : List Utxo) (signs : tx.SignedAs signed) :
      Leads (.finalized tx inputs) (.finalized signed inputs)
  | failed : Leads .failed .failed

theorem Leads.refl (stage : Stage) : Leads stage stage := by
  cases stage with
  | collecting => exact .collecting _
  | finalized tx inputs => exact .finalized inputs (.refl tx)
  | failed => exact .failed

theorem Leads.trans {first mid last : Stage} (early : Leads first mid) (late : Leads mid last) :
    Leads first last := by
  cases early with
  | collecting => exact .collecting last
  | failed => exact late
  | finalized inputs signs =>
    cases late with
    | finalized _ more => exact .finalized inputs (signs.trans more)

theorem leads_addKeyWitness {b next : Builder} {witness : KeyWitness}
    (h : b.addKeyWitness witness = .ok next) : Leads b.stage next.stage := by
  obtain ⟨tx, inputs, stage, rfl⟩ := addKeyWitness_ok h
  rw [stage]
  exact .finalized inputs (tx.signedAs_addKey witness)

theorem leads_finalize (b : Builder) (chain : Chain) :
    Leads b.stage (b.finalize chain).2.stage := by
  cases stage : b.stage with
  | collecting => exact .collecting _
  | finalized tx inputs =>
    have kept : (b.finalize chain).2 = b := by
      unfold finalize
      rw [stage]
    rw [kept, stage]
    exact .refl _
  | failed =>
    have kept : (b.finalize chain).2 = b := by
      unfold finalize
      rw [stage]
    rw [kept, stage]
    exact .refl _

theorem leads_step (chain : Chain) (b : Builder) (operation : Operation) :
    Leads b.stage (step chain b operation).2.stage := by
  cases operation with
  | edit e =>
    rw [step]
    split
    · rename_i next applied
      rcases (moves_apply applied).restaged with same | ⟨witness, signed⟩
      · show Leads b.stage next.stage
        rw [same]
        exact .refl _
      · exact leads_addKeyWitness signed
    · exact .refl _
  | finalize => exact leads_finalize b chain

/-! ### A history -/

/-- Operations in turn, each with the chain as it is by then. -/
abbrev History := List (Chain × Operation)

/-- The builder after a history, whatever the outcomes. -/
def replay (b : Builder) : History → Builder
  | [] => b
  | (chain, operation) :: rest => replay (step chain b operation).2 rest

/-- The transactions that `finalize` answers with along a history. -/
def finalizedIn (b : Builder) : History → List Transaction
  | [] => []
  | (chain, .edit e) :: rest => finalizedIn (step chain b (.edit e)).2 rest
  | (chain, .finalize) :: rest =>
    (b.finalize chain).1.toOption.toList ++ finalizedIn (b.finalize chain).2 rest

theorem leads_replay (b : Builder) (history : History) :
    Leads b.stage (b.replay history).stage := by
  induction history generalizing b with
  | nil => exact .refl _
  | cons event rest ih => exact (leads_step event.1 b event.2).trans (ih _)

variable {b : Builder} {tx : Transaction} {inputs : List Utxo}

theorem replay_finalized (stage : b.stage = .finalized tx inputs) (history : History) :
    ∃ signed, (b.replay history).stage = .finalized signed inputs ∧ tx.SignedAs signed := by
  have leads := b.leads_replay history
  rw [stage] at leads
  cases last : (b.replay history).stage with
  | collecting => rw [last] at leads; cases leads
  | failed => rw [last] at leads; cases leads
  | finalized signed _ =>
    rw [last] at leads
    cases leads with
    | finalized _ signs => exact ⟨signed, rfl, signs⟩

theorem replay_failed (stage : b.stage = .failed) (history : History) :
    (b.replay history).stage = .failed := by
  have leads := b.leads_replay history
  rw [stage] at leads
  cases last : (b.replay history).stage with
  | collecting => rw [last] at leads; cases leads
  | failed => rfl
  | finalized _ _ => rw [last] at leads; cases leads

/-! ### At most one transaction -/

theorem finalize_of_finalized (stage : b.stage = .finalized tx inputs) (chain : Chain) :
    b.finalize chain = (.error (.refused .alreadyFinalized), b) := by
  unfold finalize
  rw [stage]

theorem finalize_of_failed (stage : b.stage = .failed) (chain : Chain) :
    b.finalize chain = (.error (.refused .finalizeFailed), b) := by
  unfold finalize
  rw [stage]

theorem finalize_of_collecting (stage : b.stage = .collecting) (chain : Chain) :
    b.finalize chain = match b.build chain with
      | .ok balanced => (.ok balanced.tx, { b with stage := .finalized balanced.tx balanced.inputs })
      | .error .overflow => (.error .overflow, b)
      | .error (.refused error) => (.error (.refused error), { b with stage := .failed }) := by
  cases b
  cases stage
  rfl

theorem finalizedIn_of_finalized (stage : b.stage = .finalized tx inputs) (history : History) :
    b.finalizedIn history = [] := by
  induction history generalizing b tx with
  | nil => rfl
  | cons event rest ih =>
    obtain ⟨chain, operation⟩ := event
    obtain ⟨signed, kept, _⟩ := replay_finalized stage [(chain, operation)]
    cases operation with
    | edit e => exact ih kept
    | finalize =>
      rw [finalizedIn, finalize_of_finalized stage]
      exact ih stage

theorem length_finalizedIn_le (b : Builder) (history : History) :
    (b.finalizedIn history).length ≤ 1 := by
  induction history generalizing b with
  | nil => exact Nat.zero_le _
  | cons event rest ih =>
    obtain ⟨chain, operation⟩ := event
    cases operation with
    | edit e => exact ih _
    | finalize =>
      rw [finalizedIn]
      cases done : (b.finalize chain).1 with
      | error failure => exact ih _
      | ok tx =>
        obtain ⟨balanced, _, _, _, after⟩ := finalize_ok done
        have stage : (b.finalize chain).2.stage = .finalized tx balanced.inputs := by rw [after]
        rw [finalizedIn_of_finalized stage, List.append_nil]
        exact Nat.le_refl 1

/-- Nothing is signed before it is finalized. -/
theorem keys_of_finalize {chain : Chain} (h : (b.finalize chain).1 = .ok tx) :
    tx.witnesses.keys = [] := by
  obtain ⟨balanced, _, built, rfl, _⟩ := finalize_ok h
  obtain ⟨t⟩ := build_ok built
  obtain ⟨inputs, change, charged, assembled⟩ := Balancer.balance_assembles t.balances
  obtain ⟨outputs, _, drafted⟩ := bind_ok t.drafted
  obtain ⟨metadataHash, _, drafted⟩ := bind_ok drafted
  obtain ⟨_, _, witnesses, _⟩ := Draft.assemble_ok assembled
  rw [witnesses, ← pure_ok drafted]

theorem stage_of_refused {chain : Chain} {error : BuildError}
    (h : (b.finalize chain).1 = .error (.refused error)) (first : error ≠ .alreadyFinalized) :
    (b.finalize chain).2.stage = .failed := by
  unfold finalize at h ⊢
  split at h
  · cases h
    exact absurd rfl first
  · rename_i stage
    exact stage
  · split at h
    · cases h
    · cases h
    · rfl

/-- A history from a fresh builder gives out at most one transaction. From then on all that changes of
it are the witnesses of keys, which are appended and have a key each; it is not finalized again. Where
`finalize` fails before, no transaction comes any more. Queries and `submit` only read a builder, so a
history leaves them out; a run without an answer is no failure. -/
theorem finalized_once (before : History) (chain : Chain) :
    let b := replay {} before
    let done := (b.finalize chain).2
    (finalizedIn {} before).length ≤ 1 ∧
    (∀ tx, (b.finalize chain).1 = .ok tx → done.tx = .ok tx ∧ ∀ soon later,
      let mid := done.replay soon
      let last := mid.replay later
      ∃ keys added, mid.tx = .ok (tx.withKeys keys) ∧ last.tx = .ok (tx.withKeys (keys ++ added)) ∧
        KeyWitness.Distinct (keys ++ added) ∧ last.txHash = done.txHash ∧
        last.sortedInputs = done.sortedInputs ∧
        ∀ chain, last.finalize chain = (.error (.refused .alreadyFinalized), last)) ∧
    ∀ error, (b.finalize chain).1 = .error (.refused error) → error ≠ .alreadyFinalized →
      ∀ later,
        let last := done.replay later
        last.tx = .error .notFinalized ∧ last.sortedInputs = .error .notFinalized ∧
          ∀ chain, last.finalize chain = (.error (.refused .finalizeFailed), last) := by
  intro b done
  refine ⟨length_finalizedIn_le {} before, fun tx h => ?_, fun error h first later => ?_⟩
  · obtain ⟨balanced, _, _, rfl, after⟩ := finalize_ok h
    have stage : done.stage = .finalized balanced.tx balanced.inputs := by
      show (b.finalize chain).2.stage = _
      rw [after]
    refine ⟨by rw [Builder.tx, stage], fun soon later => ?_⟩
    obtain ⟨between, midStage, keys, rfl, start⟩ := replay_finalized stage soon
    obtain ⟨signed, lastStage, added, rfl, grown⟩ := replay_finalized midStage later
    have none : KeyWitness.Distinct balanced.tx.witnesses.keys := by
      rw [keys_of_finalize h]
      exact List.nodup_nil
    refine ⟨balanced.tx.witnesses.keys ++ keys, added, ?_, ?_, grown (start none), ?_, ?_,
      finalize_of_finalized lastStage⟩
    · rw [Builder.tx, midStage]
    · rw [Builder.tx, lastStage]
      rfl
    · rw [txHash, txHash, Builder.tx, Builder.tx, lastStage, stage]
      rfl
    · rw [sortedInputs, sortedInputs, lastStage, stage]
  · have stage := replay_failed (stage_of_refused h first) later
    refine ⟨?_, ?_, finalize_of_failed stage⟩
    · rw [Builder.tx, stage]
    · rw [sortedInputs, stage]

theorem finalized_once_signed_twice :
    let address : Address := .enterprise .testnet (.key .zero)
    let chain := FixedChain.toChain {}
    let spend := Operation.edit (.addInput ⟨⟨.zero, 0⟩, { address, value := .ofCoin 10000000 }⟩)
    let target := Operation.edit (.setChangeAddress address)
    let other : KeyWitness := ⟨⟨List.replicate 32 1, rfl⟩, .zero⟩
    let done := ((replay {} [(chain, spend), (chain, target)]).finalize chain).2
    let mid := done.replay [(chain, .edit (.addKeyWitness .placeholder)), (chain, .edit (.setTtl 5))]
    let last := mid.replay [(chain, .edit (.addKeyWitness .placeholder)), (chain, .finalize),
      (chain, .edit (.addKeyWitness other))]
    let failed := ((replay {} [(chain, spend)]).finalize chain).2.replay [(chain, target)]
    (∃ tx, done.tx = .ok tx ∧ mid.tx = .ok (tx.withKeys [.placeholder]) ∧
      last.tx = .ok (tx.withKeys [.placeholder, other]) ∧ last.txHash = done.txHash ∧
      last.sortedInputs = done.sortedInputs) ∧
    failed.finalize chain = (.error (.refused .finalizeFailed), failed) := by
  intro address chain spend target other done mid last failed
  obtain ⟨tx, finalized⟩ := ok_of_isSome (show
    ((replay {} [(chain, spend), (chain, target)]).finalize chain).1.toOption.isSome = true by
      decide +kernel)
  obtain ⟨there, kept⟩ := (finalized_once [(chain, spend), (chain, target)] chain).2.1 tx finalized
  obtain ⟨keys, added, midTx, lastTx, _, hash, inputs, _⟩ := kept
    [(chain, .edit (.addKeyWitness .placeholder)), (chain, .edit (.setTtl 5))]
    [(chain, .edit (.addKeyWitness .placeholder)), (chain, .finalize),
      (chain, .edit (.addKeyWitness other))]
  have one : mid.tx.toOption.map (·.witnesses.keys) = some [.placeholder] := by decide +kernel
  have two : last.tx.toOption.map (·.witnesses.keys) = some [.placeholder, other] := by
    decide +kernel
  replace midTx : mid.tx = .ok (tx.withKeys keys) := midTx
  replace lastTx : last.tx = .ok (tx.withKeys (keys ++ added)) := lastTx
  rw [midTx] at one
  rw [lastTx] at two
  obtain rfl : keys = [.placeholder] := Option.some.inj one
  have all : [.placeholder] ++ added = [.placeholder, other] := Option.some.inj two
  rw [all] at lastTx
  refine ⟨⟨tx, there, midTx, lastTx, hash, inputs⟩, ?_⟩
  have refused : ((replay {} [(chain, spend)]).finalize chain).1 =
      .error (.refused .noChangeAddress) := rfl
  exact ((finalized_once [(chain, spend)] chain).2.2 _ refused (by decide)
    [(chain, target)]).2.2 chain

end Builder

end ConwayTx
