import ConwayTx.Proofs.Collateral
import ConwayTx.Proofs.Output.Convergence

/-!
# The smallest collateral

An output serves when it holds exactly the target, or enough more for an output that returns the
rest; one that holds a little more does not. The candidates are looked at from the last one up, so
outputs with assets come first and are passed over, and the first output that serves is a smallest
one (`coin_le_of_candidates`). The choice is refused only where nothing serves (`select_smallest`).
-/

namespace ConwayTx.Collateral

open Outcome

variable {target coinsPerByte : Amount} {returnAddress : Address} {choice : Choice}

/-! ### Outputs that serve -/

/-- What is returned of an output that holds more than the target. -/
def rest (target : Amount) (returnAddress : Address) (u : Utxo) : TxOutput :=
  { address := returnAddress, value := .ofCoin (u.coin - target) }

/-- ADA-only at the address of a key, with exactly the target or with the minimum of an output
more. -/
structure Suitable (target : Amount) (returnAddress : Address) (coinsPerByte : Amount)
    (u : Utxo) : Prop where
  adaOnly : u.isAdaOnly = true
  keyLocked : ∃ hash, u.address.paymentCredential? = some (.key hash)
  enough : u.coin = target ∨
    target < u.coin ∧ (rest target returnAddress u).Admissible coinsPerByte

theorem isEligible_iff {u : Utxo} : isEligible u = true ↔
    u.isAdaOnly = true ∧ ∃ hash, u.address.paymentCredential? = some (.key hash) := by
  rw [isEligible, Bool.and_eq_true, Option.isSome_iff_exists]
  refine and_congr_right fun _ => ?_
  constructor
  · rintro ⟨hash, found⟩
    obtain ⟨credential, paid, key⟩ := Option.bind_eq_some_iff.1 found
    cases credential with
    | key other => exact ⟨other, paid⟩
    | script _ => cases key
  · rintro ⟨hash, paid⟩
    exact ⟨hash, by rw [paid]; rfl⟩

theorem suitable_congr {u v : Utxo} (address : u.address = v.address)
    (values : (u.value == v.value) = true)
    (suitable : Suitable target returnAddress coinsPerByte u) :
    Suitable target returnAddress coinsPerByte v := by
  obtain ⟨adaOnly, keyLocked, enough⟩ := suitable
  have coins := (Utxo.eq_of_value_beq values).1
  rw [rest, coins] at enough
  exact ⟨(Utxo.isAdaOnly_of_value_beq values).symm.trans adaOnly, address ▸ keyLocked, enough⟩

/-- The terms on which `u` is the collateral. -/
structure Serves (target : Amount) (returnAddress : Address) (coinsPerByte : Amount) (u : Utxo)
    (choice : Choice) : Prop where
  input : choice.input = u
  total : choice.total = target
  /-- Without a return the output holds the target. -/
  bare : choice.returned = none ↔ u.coin = target
  returned : ∀ o ∈ choice.returned, o = rest target returnAddress u ∧ o.Admissible coinsPerByte
  sum : u.coin.toNat = target.toNat + (choice.returned.elim 0 fun o => o.coin.toNat)

/-- The minimum of what is returned is always known. -/
theorem exists_minCoin_rest (target : Amount) (returnAddress : Address) (coinsPerByte : Amount)
    (u : Utxo) : ∃ required, (rest target returnAddress u).minCoin coinsPerByte = .ok required := by
  obtain ⟨size, weighs⟩ := TxOutput.exists_weighs
    (show (rest target returnAddress u).value.toCbor = .ok (.unsigned (u.coin - target)) from rfl)
  exact ⟨_, weighs.minCoin coinsPerByte (u.coin - target)⟩

theorem serve?_cases (target : Amount) (returnAddress : Address) (coinsPerByte : Amount)
    {u : Utxo} (eligible : isEligible u = true) :
    (serve? target returnAddress coinsPerByte u = .ok none ∧
      ¬ Suitable target returnAddress coinsPerByte u) ∨
    ∃ choice, serve? target returnAddress coinsPerByte u = .ok (some choice) ∧
      Suitable target returnAddress coinsPerByte u ∧
      Serves target returnAddress coinsPerByte u choice := by
  obtain ⟨adaOnly, keyLocked⟩ := isEligible_iff.1 eligible
  unfold serve?
  by_cases less : u.coin < target
  · rw [if_pos less]
    refine .inl ⟨rfl, fun suitable => ?_⟩
    rcases suitable.enough with same | ⟨more, _⟩
    · exact UInt64.lt_irrefl _ (same ▸ less)
    · exact UInt64.lt_asymm less more
  rw [if_neg less]
  by_cases same : u.coin = target
  · rw [if_pos same]
    refine .inr ⟨_, rfl, ⟨adaOnly, keyLocked, .inl same⟩, rfl, rfl, by simp [same], ?_, ?_⟩
    · rintro o ⟨⟩
    · exact congrArg UInt64.toNat same
  rw [if_neg same]
  have above : target < u.coin := UInt64.lt_of_le_of_ne (UInt64.not_lt.1 less) (Ne.symm same)
  have sum : u.coin.toNat = target.toNat + (u.coin - target).toNat := by
    have le := UInt64.le_iff_toNat_le.1 (UInt64.le_of_lt above)
    rw [UInt64.toNat_sub_of_le _ _ (UInt64.le_of_lt above)]
    omega
  obtain ⟨required, minimum⟩ := exists_minCoin_rest target returnAddress coinsPerByte u
  have measured : (rest target returnAddress u).minCoin coinsPerByte = _ := minimum
  unfold rest at minimum
  dsimp only
  rw [minimum]
  by_cases short : u.coin - target < required
  · refine .inl ⟨if_pos short, fun suitable => ?_⟩
    rcases suitable.enough with exact_coin | ⟨_, required', minimum', enough⟩
    · exact same exact_coin
    · cases measured.symm.trans minimum'
      exact UInt64.not_lt.2 enough short
  · have admissible : (rest target returnAddress u).Admissible coinsPerByte :=
      ⟨required, measured, UInt64.not_lt.1 short⟩
    refine .inr ⟨_, if_neg short, ⟨adaOnly, keyLocked, .inr ⟨above, admissible⟩⟩, rfl, rfl, ?_, ?_, sum⟩
    · simp [same]
    · intro o returned
      cases returned
      exact ⟨rfl, admissible⟩

/-! ### The first that serves -/

/-- Of the offered outputs the first that serves is the collateral. -/
inductive FirstSuitable (target : Amount) (returnAddress : Address) (coinsPerByte : Amount)
    (offered : List Utxo) : Except BuildError Choice → Prop where
  | none (nothing : ∀ u ∈ offered, ¬ Suitable target returnAddress coinsPerByte u) :
    FirstSuitable target returnAddress coinsPerByte offered (.error (.noCollateral target))
  | found {before after : List Utxo} {choice : Choice}
    (split : offered = before ++ choice.input :: after)
    (nothing : ∀ u ∈ before, ¬ Suitable target returnAddress coinsPerByte u)
    (suitable : Suitable target returnAddress coinsPerByte choice.input)
    (terms : Serves target returnAddress coinsPerByte choice.input choice) :
    FirstSuitable target returnAddress coinsPerByte offered (.ok choice)

theorem FirstSuitable.cons {offered : List Utxo} {u : Utxo} {answer : Except BuildError Choice}
    (unsuitable : ¬ Suitable target returnAddress coinsPerByte u)
    (first : FirstSuitable target returnAddress coinsPerByte offered answer) :
    FirstSuitable target returnAddress coinsPerByte (u :: offered) answer := by
  cases first with
  | none nothing => exact .none (List.forall_mem_cons.2 ⟨unsuitable, nothing⟩)
  | found split nothing suitable terms =>
    exact .found (congrArg (List.cons u) split) (List.forall_mem_cons.2 ⟨unsuitable, nothing⟩)
      suitable terms

theorem firstServing_first (target : Amount) (returnAddress : Address) (coinsPerByte : Amount)
    (offered : List Utxo) : FirstSuitable target returnAddress coinsPerByte offered
      (firstServing target returnAddress coinsPerByte (offered.filter isEligible)) := by
  induction offered with
  | nil => exact .none (List.forall_mem_nil _)
  | cons u others ih =>
    by_cases eligible : isEligible u = true
    · rw [List.filter_cons_of_pos eligible, firstServing]
      rcases serve?_cases target returnAddress coinsPerByte eligible with
        ⟨served, unsuitable⟩ | ⟨choice, served, suitable, terms⟩
      · rw [served]
        exact ih.cons unsuitable
      · rw [served]
        obtain rfl := terms.input
        exact .found (List.nil_append _).symm (List.forall_mem_nil _) suitable terms
    · rw [List.filter_cons_of_neg eligible]
      refine ih.cons fun suitable => eligible ?_
      exact isEligible_iff.2 ⟨suitable.adaOnly, suitable.keyLocked⟩

/-! ### The choice -/

/-- A smallest of the own outputs that serve or, where none of them does, the first in the
fallback. -/
structure Smallest (target : Amount) (returnAddress : Address) (coinsPerByte : Amount)
    (own fallback : List Utxo) (choice : Choice) : Prop where
  suitable : Suitable target returnAddress coinsPerByte choice.input
  least : (∃ u ∈ own, Suitable target returnAddress coinsPerByte u) → choice.input ∈ own ∧
    ∀ u ∈ own, Suitable target returnAddress coinsPerByte u → choice.input.coin ≤ u.coin
  first : (∀ u ∈ own, ¬ Suitable target returnAddress coinsPerByte u) →
    ∃ before after, fallback = before ++ choice.input :: after ∧
      ∀ u ∈ before, ¬ Suitable target returnAddress coinsPerByte u
  terms : Serves target returnAddress coinsPerByte choice.input choice

/-- Refused where nothing serves, and the smallest that serves otherwise. -/
structure Answers (target : Amount) (returnAddress : Address) (coinsPerByte : Amount)
    (own fallback : List Utxo) (answer : Except BuildError Choice) : Prop where
  refused : answer = .error (.noCollateral target) ↔
    ∀ u ∈ own ++ fallback, ¬ Suitable target returnAddress coinsPerByte u
  chosen : answer ≠ .error (.noCollateral target) → ∃ choice, answer = .ok choice ∧
    Smallest target returnAddress coinsPerByte own fallback choice

/-- What stands earlier among the candidates holds no less. -/
theorem coin_le_of_candidates {pool before after : List Utxo} {used : SortedSet TxIn} {u v : Utxo}
    (split : (Selection.candidates pool used).reverse = before ++ u :: after) (listed : v ∈ after)
    (kinds : v.isAdaOnly = u.isAdaOnly) : u.coin ≤ v.coin := by
  have ordered := List.pairwise_reverse.2
    (Selection.pairwise_ranked (Selection.unused pool used))
  rw [show Selection.ranked (Selection.unused pool used) = Selection.candidates pool used from rfl,
    split, List.pairwise_append, List.pairwise_cons] at ordered
  exact Selection.coin_le_of_rank (ordered.2.1.1 v listed) kinds

/-- A choice out of candidates from the last one up, and then out of a fallback. -/
theorem smallest_of_split {pool fallback before after : List Utxo} {used : SortedSet TxIn}
    (split : (Selection.candidates pool used).reverse ++ fallback =
      before ++ choice.input :: after)
    (nothing : ∀ u ∈ before, ¬ Suitable target returnAddress coinsPerByte u)
    (suitable : Suitable target returnAddress coinsPerByte choice.input)
    (terms : Serves target returnAddress coinsPerByte choice.input choice) :
    Smallest target returnAddress coinsPerByte (Selection.candidates pool used) fallback choice := by
  have candidate {v : Utxo} (mem : v ∈ Selection.candidates pool used) :
      v ∈ (Selection.candidates pool used).reverse := List.mem_reverse.2 mem
  rcases List.append_eq_append_iff.1 split with ⟨passed, rfl, rest⟩ | ⟨tail, own, rest⟩
  · have none (v : Utxo) (mem : v ∈ Selection.candidates pool used) :
        ¬ Suitable target returnAddress coinsPerByte v :=
      nothing v (List.mem_append_left _ (candidate mem))
    refine ⟨suitable, fun ⟨v, mem, serves⟩ => absurd serves (none v mem), fun _ => ?_, terms⟩
    exact ⟨passed, after, rest, fun v mem => nothing v (List.mem_append_right _ mem)⟩
  cases tail with
  | nil =>
    rw [List.append_nil] at own
    have none (v : Utxo) (mem : v ∈ Selection.candidates pool used) :
        ¬ Suitable target returnAddress coinsPerByte v := nothing v (own ▸ candidate mem)
    refine ⟨suitable, fun ⟨v, mem, serves⟩ => absurd serves (none v mem), fun _ => ?_, terms⟩
    exact ⟨[], after, rest.symm, List.forall_mem_nil _⟩
  | cons v tail =>
    obtain ⟨rfl, rfl⟩ := List.cons.inj rest
    have inside : choice.input ∈ Selection.candidates pool used := by
      rw [← List.mem_reverse, own]
      exact List.mem_append_right _ (.head _)
    refine ⟨suitable, fun _ => ⟨inside, fun v mem serves => ?_⟩,
      fun none => absurd suitable (none _ inside), terms⟩
    replace mem := candidate mem
    rw [own] at mem
    rcases List.mem_append.1 mem with early | late
    · exact absurd serves (nothing v early)
    · rcases List.mem_cons.1 late with rfl | later
      · exact UInt64.le_refl _
      · exact coin_le_of_candidates own later (serves.adaOnly.trans suitable.adaOnly.symm)

theorem FirstSuitable.answers {pool fallback : List Utxo} {used : SortedSet TxIn}
    {answer : Except BuildError Choice}
    (first : FirstSuitable target returnAddress coinsPerByte
      ((Selection.candidates pool used).reverse ++ fallback) answer) :
    Answers target returnAddress coinsPerByte (Selection.candidates pool used) fallback answer := by
  have same (u : Utxo) : u ∈ (Selection.candidates pool used).reverse ++ fallback ↔
      u ∈ Selection.candidates pool used ++ fallback := by simp
  cases first with
  | none nothing =>
    exact ⟨⟨fun _ u mem => nothing u ((same u).2 mem), fun _ => rfl⟩, fun served => absurd rfl served⟩
  | found split nothing suitable terms =>
    refine ⟨⟨fun refused => (by cases refused), fun none => absurd suitable (none _ ?_)⟩,
      fun _ => ⟨_, rfl, smallest_of_split split nothing suitable terms⟩⟩
    rw [← same, split]
    exact List.mem_append_right _ (.head _)

/-- Outputs with one reference have one address and one value. -/
def Alike (utxos : List Utxo) : Prop :=
  ∀ u ∈ utxos, ∀ v ∈ utxos, u.ref = v.ref → u.address = v.address ∧ (u.value == v.value) = true

instance (utxos : List Utxo) : Decidable (Alike utxos) :=
  inferInstanceAs (Decidable (∀ u ∈ utxos, ∀ v ∈ utxos,
    u.ref = v.ref → u.address = v.address ∧ (u.value == v.value) = true))

/-- Choosing among the candidates is choosing among all outputs they stand for. -/
theorem Answers.of_candidates {own offered fallback : List Utxo}
    {answer : Except BuildError Choice} (sub : own ⊆ offered)
    (onto : ∀ v ∈ offered, ∃ u ∈ own, u.address = v.address ∧ (u.value == v.value) = true)
    (answers : Answers target returnAddress coinsPerByte own fallback answer) :
    Answers target returnAddress coinsPerByte offered fallback answer := by
  -- What serves among all has a candidate that serves as well.
  have stands {v : Utxo} (mem : v ∈ offered)
      (suitable : Suitable target returnAddress coinsPerByte v) :
      ∃ u ∈ own, Suitable target returnAddress coinsPerByte u ∧ u.coin = v.coin := by
    obtain ⟨u, listed, address, values⟩ := onto v mem
    have back : (v.value == u.value) = true := by
      obtain ⟨coins, bundles⟩ := Bool.and_eq_true_iff.1 values
      exact Bool.and_eq_true_iff.2 ⟨decide_eq_true (of_decide_eq_true coins).symm,
        decide_eq_true (of_decide_eq_true bundles).symm⟩
    exact ⟨u, listed, suitable_congr address.symm back suitable, (Utxo.eq_of_value_beq values).1⟩
  have none_iff : (∀ v ∈ offered, ¬ Suitable target returnAddress coinsPerByte v) ↔
      ∀ u ∈ own, ¬ Suitable target returnAddress coinsPerByte u := by
    refine ⟨fun none u mem => none u (sub mem), fun none v mem suitable => ?_⟩
    obtain ⟨u, listed, serves, _⟩ := stands mem suitable
    exact none u listed serves
  refine ⟨?_, fun served => ?_⟩
  · rw [answers.refused, List.forall_mem_append, List.forall_mem_append, none_iff]
  · obtain ⟨choice, found, smallest⟩ := answers.chosen served
    refine ⟨choice, found, smallest.suitable, fun ⟨v, mem, suitable⟩ => ?_,
      fun none => smallest.first (none_iff.1 none), smallest.terms⟩
    obtain ⟨u, listed, serves, _⟩ := stands mem suitable
    obtain ⟨inside, least⟩ := smallest.least ⟨u, listed, serves⟩
    refine ⟨sub inside, fun w mem suitable => ?_⟩
    obtain ⟨x, listed, serves, coins⟩ := stands mem suitable
    exact coins ▸ least x listed serves

/-- The choice is a smallest candidate that serves, or the first in the fallback; where equal
references mean equal outputs, the candidates stand for all outputs that are not in use. -/
theorem select_smallest (pool : List Utxo) (used : SortedSet TxIn) (fallback : List Utxo)
    (target : Amount) (returnAddress : Address) (coinsPerByte : Amount) :
    let answer := select pool used fallback target returnAddress coinsPerByte
    Answers target returnAddress coinsPerByte (Selection.candidates pool used) fallback answer ∧
    (Alike pool →
      Answers target returnAddress coinsPerByte (Selection.unused pool used) fallback answer) := by
  intro answer
  have among : Answers target returnAddress coinsPerByte (Selection.candidates pool used) fallback
      answer := (firstServing_first target returnAddress coinsPerByte _).answers
  refine ⟨among, fun alike => among.of_candidates (Selection.subset_ranked _) fun v mem => ?_⟩
  obtain ⟨u, listed, same⟩ := Selection.exists_mem_ranked mem
  exact ⟨u, listed, alike u (Selection.mem_unused.1 (Selection.subset_ranked _ listed)).1 v
    (Selection.mem_unused.1 mem).1 same⟩

/-- The second output holds too little more than the target; the third has assets. -/
theorem select_smallest_excess :
    let address : Address := .enterprise .testnet (.key .zero)
    let entry (index : UInt32) (value : Value) : Utxo := ⟨⟨.zero, index⟩, { address, value }⟩
    let large := entry 0 (.ofCoin 4000000)
    let close := entry 1 (.ofCoin 2500000)
    let token := entry 2 ((Value.ofCoin 2000000).addAsset .zero ⟨[], by simp⟩ 7)
    let pool := [large, close, close, token]
    ∃ choice, select pool ∅ [] 2000000 address 4310 = .ok choice ∧
      choice.input.ref = large.ref ∧ Alike pool ∧
      Smallest 2000000 address 4310 (Selection.unused pool ∅) [] choice := by
  intro address entry large close token pool
  have alike : Alike pool := by decide +kernel
  have listed : Selection.candidates pool ∅ = [large, close, token] := by
    have sorted : (pool.mergeSort fun a b => (Selection.rank a b).isLE) = pool :=
      List.mergeSort_of_pairwise (by decide +kernel)
    rw [Selection.candidates, show Selection.unused pool ∅ = pool from rfl, Selection.ranked,
      sorted]
    simp [pool, large, close, token, entry, Selection.dropRepeats]
  have run : (select pool ∅ [] 2000000 address 4310).toOption.map (·.input.ref) =
      some large.ref := by
    rw [select, listed]
    decide +kernel
  obtain ⟨choice, chosen, ref⟩ := Option.map_eq_some_iff.1 run
  replace chosen := ok_of_toOption chosen
  obtain ⟨_, found, smallest⟩ :=
    ((select_smallest pool ∅ [] 2000000 address 4310).2 alike).chosen (by rw [chosen]; rintro ⟨⟩)
  cases chosen.symm.trans found
  exact ⟨choice, chosen, ref, alike, smallest⟩

/-- Of different outputs with one reference only the larger is a candidate, and the other is the one
that serves. -/
theorem select_repeated :
    let address : Address := .enterprise .testnet (.key .zero)
    let entry (coin : Amount) : Utxo := ⟨⟨.zero, 0⟩, { address, value := .ofCoin coin }⟩
    let pool := [entry 2100000, entry 2000000]
    select pool ∅ [] 2000000 address 4310 = .error (.noCollateral 2000000) ∧
      ∃ u ∈ Selection.unused pool ∅, Suitable 2000000 address 4310 u := by
  intro address entry pool
  have listed : Selection.candidates pool ∅ = [entry 2100000] := by
    have sorted : (pool.mergeSort fun a b => (Selection.rank a b).isLE) = pool :=
      List.mergeSort_of_pairwise (by decide +kernel)
    rw [Selection.candidates, show Selection.unused pool ∅ = pool from rfl, Selection.ranked,
      sorted]
    simp [pool, entry, Selection.dropRepeats]
  have minimum : (rest 2000000 address (entry 2100000)).minCoin 4310 = .ok 857690 :=
    ok_of_toOption (by decide +kernel)
  have answers : Answers 2000000 address 4310 (Selection.candidates pool ∅) []
      (select pool ∅ [] 2000000 address 4310) := (firstServing_first _ _ _ _).answers
  refine ⟨answers.refused.2 fun u mem suitable => ?_, entry 2000000, .tail _ (.head _), rfl,
    ⟨_, rfl⟩, .inl rfl⟩
  rw [listed, List.append_nil, List.mem_singleton] at mem
  subst mem
  rcases suitable.enough with same | ⟨_, required, measured, enough⟩
  · exact absurd same (by decide)
  · cases minimum.symm.trans measured
    exact absurd enough (by decide)

end ConwayTx.Collateral
