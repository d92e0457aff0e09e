import ConwayTx.Proofs.Balance.Dust
import Mathlib.Data.Finset.Card

/-!
# Funding comes to an end

Funding as a loop over the references in use, without a bound and without a look at whether there
are picks. A pass only asks for what is not covered, so that it always picks something
(`nonempty_of_uncovered`), and what it picks was not in use. The unused references of the pool bound
the passes, and the loop ends as `Balancer.fund` does (`loop_ends`).
-/

namespace ConwayTx

open Outcome

/-! ### Picks for what is not covered -/

theorem Value.covers_of_monus {required committed : Value}
    (coin : (required.monus committed).coin.toNat = 0)
    (assets : ∀ e ∈ (required.monus committed).positive,
      (required.monus committed).quantity e.1 e.2.1 ≤ 0) :
    committed.covers required = true := by
  rw [coin_monus] at coin
  refine covers_iff.2 ⟨by omega, fun p n above => ?_⟩
  by_contra short
  have missing : (required.monus committed).quantity p n =
      required.quantity p n - committed.quantity p n := by
    rw [quantity_monus, if_pos above]
    omega
  have none := assets (p, n, _) (mem_positive.2 ⟨by omega, missing⟩)
  dsimp only at none
  omega

theorem Value.not_covers_ofCoin {needed : Amount} (above : 0 < needed) :
    (ofCoin 0).covers (ofCoin needed) = false := by
  rw [Bool.eq_false_iff]
  intro covered
  exact absurd (covers_iff.1 covered).1 (Nat.not_le.2 (UInt64.lt_iff_toNat_lt.1 above))

namespace Selection

/-- Without a pick no asset was missing. -/
theorem coverAssets_nil {assets : List (PolicyId × AssetName × Int)} {start result : Progress}
    (h : coverAssets assets start = .ok result) (none : result.selected = []) :
    start.selected = [] ∧ result.remaining = start.remaining ∧
      ∀ e ∈ assets, start.remaining.quantity e.1 e.2.1 ≤ 0 := by
  fun_induction coverAssets assets start with
  | case1 =>
    cases h
    exact ⟨none, rfl, List.forall_mem_nil _⟩
  | case2 policy name q more progress missing covered ih =>
    obtain ⟨empty, same, rest⟩ := ih h
    exact ⟨empty, same, List.forall_mem_cons.2 ⟨covered, rest⟩⟩
  | case3 => cases h
  | case4 policy name q more progress missing uncovered g enough ih =>
    have short : g.short = missing - (g.picks.map (·.value.quantity policy name)).sum :=
      pickAsset_short missing progress.candidates
    rw [(List.append_eq_nil_iff.1 (ih h).1).2, List.map_nil, List.sum_nil] at short
    omega

theorem coverCoin_nil {required committed : Value} {progress : Progress}
    (h : coverCoin required committed progress = .ok []) :
    progress.selected = [] ∧ progress.remaining.coin.toNat = 0 := by
  simp only [coverCoin] at h
  split at h
  · rename_i enough
    obtain ⟨selected, picks⟩ := List.append_eq_nil_iff.1 (Except.ok.inj h)
    refine ⟨selected, Nat.eq_zero_of_not_pos fun above => ?_⟩
    exact nonempty_takeCoin above enough picks
  · obtain ⟨_, _, h⟩ := bind_ok h
    cases h

theorem nonempty_of_uncovered {l picks : List Utxo} {required committed : Value}
    (uncovered : committed.covers required = false)
    (h : selectFrom l required committed = .ok picks) : picks ≠ [] := by
  rintro rfl
  simp only [selectFrom] at h
  split at h
  · cases h
  · rename_i progress assets
    obtain ⟨none, coin⟩ := coverCoin_nil h
    obtain ⟨_, same, enough⟩ := coverAssets_nil assets none
    rw [same] at coin
    rw [Value.covers_of_monus coin enough] at uncovered
    cases uncovered

theorem unused_filter (pool : List Utxo) (used : SortedSet TxIn) (p : Utxo → Bool) :
    unused (pool.filter p) used = (unused pool used).filter p :=
  List.filter_comm _ _ _

end Selection

namespace Balancer

/-! ### The loop -/

/-- The inputs, and every reference that is in use. -/
structure Standing where
  inputs : List Utxo
  used : SortedSet TxIn

namespace Standing

def InStep (s : Standing) : Prop := ∀ u ∈ s.inputs, s.used.contains u.ref = true

def take (s : Standing) (picks : List Utxo) : Standing :=
  ⟨s.inputs ++ picks, s.used.addKeys (picks.map Utxo.ref)⟩

/-- References of the pool that are not in use. -/
def unusedRefs (pool : List Utxo) (s : Standing) : Finset TxIn :=
  ((Selection.unused pool s.used).map Utxo.ref).toFinset

end Standing

/-- What a pass takes outputs for. -/
inductive Request where
  | first
  | demand (supply needed : Value)
  | shortfall (lacking : Amount)
  | dust (lacking : Amount)

def Request.Unmet (inputs : List Utxo) : Request → Prop
  | .first => inputs = []
  | .demand supply needed => supply.covers needed = false
  | .shortfall lacking => 0 < lacking
  | .dust lacking => 0 < lacking

/-- What a pass comes to: it ends with some change, or it goes on with some picks. -/
inductive Pass where
  | done (change : Change)
  | more (request : Request) (picks : List Utxo)

/-- Goes on with whatever is selected; `recover` answers when there is not enough. -/
def seek (pool : List Utxo) (used : SortedSet TxIn) (request : Request) (required committed : Value)
    (recover : Failure → Except Failure Pass) : Except Failure Pass :=
  match Selection.select pool used required committed with
  | .error e => recover e
  | .ok picks => .ok (.more request picks)

variable (b : Balancer) (extraSupply demand : Value)

def seekFirst (supply : Value) (s : Standing) : Except Failure Pass :=
  match Selection.candidates b.pool s.used with
  | [] => .error (.refused (.insufficientFunds demand.coin supply.coin))
  | u :: _ => .ok (.more .first [u])

def seekShortfall (lacking : Amount) (s : Standing) : Except Failure Pass :=
  seek b.pool s.used (.shortfall lacking) (.ofCoin lacking) (.ofCoin 0) fun
    | .refused (.insufficientFunds ..) => .error (.refused (.noUtxosForChange lacking))
    | e => .error e

def seekDust (change : Change) (s : Standing) : Except Failure Pass :=
  match (Change.output b.changeAddress (.ofCoin change.dust)).minCoin b.params.coinsPerUtxoByte with
  | .error e => .error (.refused (.ofEncodeError e))
  | .ok required =>
    let lacking := Amount.clamp (required.toNat - change.dust.toNat)
    seek (b.pool.filter Utxo.isAdaOnly) s.used (.dust lacking) (.ofCoin lacking) (.ofCoin 0) fun
      | .refused (.insufficientFunds ..) => .ok (.done change)
      | e => .error e

def pass (s : Standing) : Except Failure Pass :=
  match supplyOf extraSupply s.inputs with
  | .error e => .error (.refused (.value e))
  | .ok supply =>
    if s.inputs.isEmpty then b.seekFirst demand supply s
    else if supply.covers demand then
      match supply.sub demand with
      | .error e => .error (.refused (.value e))
      | .ok left =>
        match Change.plan b.params b.changeAddress left with
        | .error e => .error (.refused (.ofEncodeError e))
        | .ok (.short lacking) => b.seekShortfall lacking s
        | .ok (.payable change) =>
          if change.dust = 0 then .ok (.done change) else b.seekDust change s
    else seek b.pool s.used (.demand supply demand) demand supply .error

/-- Pass after pass; nothing once `passes` of them have gone on. -/
def loop : Nat → Standing → Option (Except Failure Funded)
  | 0, _ => none
  | passes + 1, s =>
    match b.pass extraSupply demand s with
    | .error e => some (.error e)
    | .ok (.done change) => some (.ok ⟨change, s.inputs, Selection.unused b.pool s.used⟩)
    | .ok (.more _ picks) => loop passes (s.take picks)

/-- Passes that went on, one after the other, and where they led. -/
inductive Reaches (start : Standing) : Nat → Standing → Prop where
  | start : Reaches start 0 start
  | pass {passes : Nat} {s : Standing} {request : Request} {picks : List Utxo}
      (before : Reaches start passes s)
      (more : b.pass extraSupply demand s = .ok (.more request picks)) :
      Reaches start (passes + 1) (s.take picks)

/-! ### One pass -/

variable {b extraSupply demand} {inputs spare : List Utxo} {s : Standing}

/-- A pass ends as the step of funding does. Where it goes on, it does so for what is not met, and
with the picks of the step. -/
inductive Pass.Matches (inputs : List Utxo) :
    Except Failure Pass → Except Failure (FundStep spare) → Prop where
  | failed (e : Failure) : Matches inputs (.error e) (.error e)
  | done (change : Change) : Matches inputs (.ok (.done change)) (.ok (.settled change))
  | more {request : Request} {picks : List Utxo} (unmet : request.Unmet inputs)
      (nonempty : picks ≠ []) (sub : picks ⊆ spare) :
      Matches inputs (.ok (.more request picks)) (.ok (.take picks nonempty sub))

theorem matches_seek {pool others : List Utxo} {used : SortedSet TxIn} {request : Request}
    {required committed : Value} {recover : Failure → Except Failure Pass}
    {recover' : Failure → Except Failure (FundStep spare)}
    {otherwise : Except Failure (FundStep spare)} (same : Selection.unused pool used = others)
    (within : others ⊆ spare) (unmet : request.Unmet inputs)
    (uncovered : committed.covers required = false)
    (recovers : ∀ e, Pass.Matches inputs (recover e) (recover' e)) :
    Pass.Matches inputs (seek pool used request required committed recover)
      (takeFor others within required committed recover' otherwise) := by
  subst same
  unfold seek
  cases found : Selection.select pool used required committed with
  | error e =>
    rw [takeFor_of_error found]
    exact recovers e
  | ok picks =>
    have nonempty := Selection.nonempty_of_uncovered uncovered found
    rw [takeFor_of_ok found]
    unfold takeOr
    rw [dif_neg nonempty]
    exact .more unmet _ _

theorem matches_seekFirst (empty : s.inputs = []) (supply : Value) :
    Pass.Matches s.inputs (b.seekFirst demand supply s)
      (takeFirst (Selection.unused b.pool s.used) supply demand) := by
  unfold seekFirst takeFirst
  split
  · rename_i none
    split
    · exact .failed _
    · rename_i some
      cases none.symm.trans some
  · rename_i u rest some
    split
    · rename_i none
      cases none.symm.trans some
    · rename_i some'
      cases some.symm.trans some'
      have unmet : Request.first.Unmet s.inputs := empty
      exact .more unmet _ _

theorem matches_seekShortfall {lacking : Amount} (above : 0 < lacking) :
    Pass.Matches s.inputs (b.seekShortfall lacking s)
      (takeShortfall (Selection.unused b.pool s.used) lacking) := by
  refine matches_seek rfl (List.Subset.refl _) above (Value.not_covers_ofCoin above) fun e => ?_
  cases e with
  | overflow => exact .failed _
  | refused error => cases error <;> exact .failed _

theorem matches_seekDust {change : Change} {left : Value}
    (plan : Change.plan b.params b.changeAddress left = .ok (.payable change))
    (dust : change.dust ≠ 0) :
    Pass.Matches s.inputs (b.seekDust change s)
      (takeDust b (Selection.unused b.pool s.used) change) := by
  obtain ⟨_, minimum, measured, below⟩ := Change.dust_below plan dust
  have above : 0 < Amount.clamp (minimum.toNat - change.dust.toNat) := by
    have small := Amount.toNat_le_largest minimum
    rw [UInt64.lt_iff_toNat_lt, Amount.toNat_clamp]
    show 0 < _
    omega
  unfold seekDust takeDust
  rw [measured]
  refine matches_seek (Selection.unused_filter _ _ _) _ above (Value.not_covers_ofCoin above)
    fun e => ?_
  cases e with
  | overflow => exact .failed _
  | refused error =>
    cases error with
    | insufficientFunds required available => exact .done change
    | _ => exact .failed _

theorem matches_pass (b : Balancer) (extraSupply demand : Value) (s : Standing) :
    Pass.Matches s.inputs (b.pass extraSupply demand s)
      (fundStep b extraSupply demand s.inputs (Selection.unused b.pool s.used)) := by
  unfold pass fundStep
  cases supplyOf extraSupply s.inputs with
  | error e => exact .failed _
  | ok supply =>
    by_cases empty : s.inputs.isEmpty
    · simp only [if_pos empty]
      exact matches_seekFirst (List.isEmpty_iff.1 empty) supply
    by_cases covered : supply.covers demand
    · simp only [if_neg empty, if_pos covered]
      cases supply.sub demand with
      | error e => exact .failed _
      | ok left =>
        dsimp only
        cases plan : Change.plan b.params b.changeAddress left with
        | error e => exact .failed _
        | ok planned =>
          cases planned with
          | short lacking => exact matches_seekShortfall (Change.short_pos plan)
          | payable change =>
            by_cases dust : change.dust = 0
            · simp only [if_pos dust]
              exact .done change
            · simp only [if_neg dust]
              exact matches_seekDust plan dust
    · simp only [if_neg empty, if_neg covered]
      have uncovered : supply.covers demand = false := Bool.eq_false_iff.2 covered
      exact matches_seek rfl _ uncovered uncovered .failed

/-! ### What is in use -/

theorem Standing.unused_take (pool : List Utxo) (s : Standing) (picks : List Utxo) :
    Selection.unused pool (s.take picks).used = withoutRefs (Selection.unused pool s.used) picks := by
  unfold Selection.unused withoutRefs
  rw [List.filter_filter]
  refine List.filter_congr fun u _ => ?_
  rw [Bool.eq_iff_iff]
  simp [take, ← Bool.not_eq_true, SortedMap.contains_addKeys]
  tauto

theorem Standing.InStep.take {picks : List Utxo} (inStep : s.InStep) : (s.take picks).InStep := by
  intro u mem
  refine (SortedMap.contains_addKeys _ _ _).2 ?_
  rcases List.mem_append.1 mem with given | picked
  · exact .inl (inStep u given)
  · exact .inr (List.mem_map_of_mem picked)

theorem Standing.mem_unusedRefs {pool : List Utxo} {s : Standing} {r : TxIn} :
    r ∈ s.unusedRefs pool ↔ r ∈ pool.map Utxo.ref ∧ s.used.contains r = false := by
  simp only [unusedRefs, List.mem_toFinset, List.mem_map, Selection.mem_unused]
  constructor
  · rintro ⟨u, ⟨mem, unused⟩, rfl⟩
    exact ⟨⟨u, mem, rfl⟩, unused⟩
  · rintro ⟨⟨u, mem, rfl⟩, unused⟩
    exact ⟨u, ⟨mem, unused⟩, rfl⟩

theorem Standing.card_take_lt {pool picks : List Utxo} (nonempty : picks ≠ [])
    (sub : picks ⊆ Selection.unused pool s.used) :
    ((s.take picks).unusedRefs pool).card < (s.unusedRefs pool).card := by
  have contains (r : TxIn) := SortedMap.contains_addKeys s.used (picks.map Utxo.ref) r
  obtain ⟨u, picked⟩ := List.exists_mem_of_ne_nil picks nonempty
  refine Finset.card_lt_card (Finset.ssubset_iff_of_subset ?_ |>.2 ⟨u.ref, ?_, ?_⟩)
  · intro r mem
    obtain ⟨listed, unused⟩ := mem_unusedRefs.1 mem
    refine mem_unusedRefs.2 ⟨listed, ?_⟩
    rw [Bool.eq_false_iff] at unused ⊢
    exact fun used => unused ((contains r).2 (.inl used))
  · obtain ⟨listed, unused⟩ := Selection.mem_unused.1 (sub picked)
    exact mem_unusedRefs.2 ⟨List.mem_map_of_mem listed, unused⟩
  · intro mem
    have used := (contains u.ref).2 (.inr (List.mem_map_of_mem picked))
    exact absurd used (Bool.eq_false_iff.1 (mem_unusedRefs.1 mem).2)

/-! ### All passes -/

theorem more_of_pass {request : Request} {picks : List Utxo}
    (more : b.pass extraSupply demand s = .ok (.more request picks)) :
    request.Unmet s.inputs ∧ picks ≠ [] ∧ picks ⊆ Selection.unused b.pool s.used := by
  have same := matches_pass b extraSupply demand s
  rw [more] at same
  generalize fundStep b extraSupply demand s.inputs _ = step at same
  cases same with
  | more unmet nonempty sub => exact ⟨unmet, nonempty, sub⟩

theorem Reaches.keeps {start : Standing} {passes : Nat}
    (reached : Reaches b extraSupply demand start passes s) (inStep : start.InStep) :
    s.InStep ∧ passes + (s.unusedRefs b.pool).card ≤ (start.unusedRefs b.pool).card := by
  induction reached with
  | start => exact ⟨inStep, (Nat.zero_add _).le⟩
  | pass before more ih =>
    obtain ⟨_, nonempty, sub⟩ := more_of_pass more
    have fewer := Standing.card_take_lt nonempty sub
    exact ⟨ih.1.take, by omega⟩

theorem loop_eq_fund {passes : Nat} (enough : (s.unusedRefs b.pool).card < passes) :
    b.loop extraSupply demand passes s =
      some (b.fund extraSupply demand s.inputs (Selection.unused b.pool s.used)) := by
  induction passes generalizing s with
  | zero => cases enough
  | succ passes ih =>
    have same := matches_pass b extraSupply demand s
    rw [loop]
    generalize one : b.pass extraSupply demand s = pass at same ⊢
    generalize step : fundStep b extraSupply demand s.inputs _ = fundStep at same
    cases same with
    | failed e => rw [fund_of_error step]
    | done change => rw [fund_of_settled step]
    | more _ nonempty sub =>
      have fewer := Standing.card_take_lt nonempty sub
      rw [fund_of_take step, ← Standing.unused_take]
      exact ih (by omega)

/-- From references in use that include the inputs, whatever is supplied and demanded: each pass
that goes on asks for what is not met and takes outputs of the pool that were not in use, so the
loop ends, after one pass for each unused reference and one more at most. It ends as funding does. -/
theorem loop_ends {start : Standing} (inStep : start.InStep) (b : Balancer)
    (extraSupply demand : Value) :
    (∀ passes s, Reaches b extraSupply demand start passes s →
      passes + (s.unusedRefs b.pool).card ≤ (start.unusedRefs b.pool).card ∧ s.InStep ∧
        ∀ request picks, b.pass extraSupply demand s = .ok (.more request picks) →
          request.Unmet s.inputs ∧ picks ≠ [] ∧
            ∀ u ∈ picks, u ∈ b.pool ∧ s.used.contains u.ref = false ∧
              u.ref ∉ s.inputs.map Utxo.ref) ∧
    ∀ passes, (start.unusedRefs b.pool).card < passes →
      b.loop extraSupply demand passes start =
        some (b.fund extraSupply demand start.inputs (Selection.unused b.pool start.used)) := by
  refine ⟨fun passes s reached => ?_, fun passes enough => loop_eq_fund enough⟩
  obtain ⟨kept, counted⟩ := reached.keeps inStep
  refine ⟨counted, kept, fun request picks more => ?_⟩
  obtain ⟨unmet, nonempty, sub⟩ := more_of_pass more
  refine ⟨unmet, nonempty, fun u picked => ?_⟩
  obtain ⟨listed, unused⟩ := Selection.mem_unused.1 (sub picked)
  refine ⟨listed, unused, fun given => ?_⟩
  obtain ⟨v, among, same⟩ := List.mem_map.1 given
  rw [← same, kept v among] at unused
  cases unused

/-- The lovelace that has to go back with the assets takes the only unused output, so that the bound
is reached. -/
theorem loop_ends_second :
    let address : Address := .enterprise .testnet (.key .zero)
    let token : Utxo := ⟨⟨.zero, 0⟩,
      { address, value := (Value.ofCoin 1200000).addAsset .zero ⟨[], by simp⟩ 5 }⟩
    let ada : Utxo := ⟨⟨.zero, 1⟩, { address, value := .ofCoin 3000000 }⟩
    let b : Balancer := {
      params := {}, maxFeeRounds := 5, pool := [token, ada], changeAddress := address
      fixedFee := none, feePadding := 0 }
    let start : Standing := ⟨[token], .ofKeys [token.ref]⟩
    start.InStep ∧ (start.unusedRefs b.pool).card = 1 ∧
      b.loop (.ofCoin 0) (.ofCoin 1000000) 1 start = none ∧
      ∃ funded, b.loop (.ofCoin 0) (.ofCoin 1000000) 2 start = some (.ok funded) ∧
        funded.inputs.map Utxo.ref = [token.ref, ada.ref] := by
  intro address token ada b start
  have inStep : start.InStep := List.forall_mem_singleton.2 (by decide +kernel)
  have count : (start.unusedRefs b.pool).card = 1 := by decide +kernel
  have ends := (loop_ends inStep b (.ofCoin 0) (.ofCoin 1000000)).2 2 (by rw [count]; decide)
  obtain ⟨funded, done⟩ := ok_of_isSome (show (b.fund (.ofCoin 0) (.ofCoin 1000000) start.inputs
    (Selection.unused b.pool start.used)).toOption.isSome = true by decide +kernel)
  have taken : (b.fund (.ofCoin 0) (.ofCoin 1000000) start.inputs
      (Selection.unused b.pool start.used)).toOption.map (·.inputs.map Utxo.ref) =
      some [token.ref, ada.ref] := by decide +kernel
  rw [done] at ends taken
  exact ⟨inStep, count, Option.isNone_iff_eq_none.1 (by decide +kernel), funded, ends,
    Option.some.inj taken⟩

end Balancer

end ConwayTx
