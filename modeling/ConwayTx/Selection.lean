import ConwayTx.BuildError
import ConwayTx.Output

/-!
# Coin selection

Assets are covered first, since an output holding them also brings lovelace. The lovelace still
needed then comes from ADA-only outputs, largest first, before asset-bearing ones.
`subset_of_selectFrom` says that every pick is a candidate.
-/

namespace ConwayTx.Selection

/-! ### Candidates -/

/-- ADA-only first, then more lovelace first, then by reference. -/
def rank (a b : Utxo) : Ordering :=
  (compareOn (fun u => !u.isAdaOnly) a b).then ((compare b.coin a.coin).then (compare a.ref b.ref))

/-- Of neighbours with one reference the first stays. -/
def dropRepeats : List Utxo → List Utxo
  | [] => []
  | u :: rest => u :: dropRepeats (rest.dropWhile (·.ref = u.ref))
termination_by l => l.length
decreasing_by
  have := (List.dropWhile_sublist (fun v : Utxo => decide (v.ref = u.ref)) (l := rest)).length_le
  simp only [List.length_cons]; omega

def ranked (pool : List Utxo) : List Utxo := dropRepeats (pool.mergeSort fun a b => (rank a b).isLE)

def unused (pool : List Utxo) (used : SortedSet TxIn) : List Utxo :=
  pool.filter fun u => !used.contains u.ref

/-- What may still be picked, in the order it is looked at. -/
def candidates (pool : List Utxo) (used : SortedSet TxIn) : List Utxo := ranked (unused pool used)

/-! ### Assets -/

/-- The first candidate that satisfies `p`, and the others. -/
def extract? (p : Utxo → Bool) : List Utxo → Option (Utxo × List Utxo)
  | [] => none
  | u :: rest => if p u then some (u, rest) else (extract? p rest).map fun (v, others) => (v, u :: others)

structure Gathered where
  picks : List Utxo
  others : List Utxo
  short : Int

/-- Takes every holder in turn until nothing is short. -/
def gather (held : Utxo → Int) (short : Int) : List Utxo → Gathered
  | [] => ⟨[], [], short⟩
  | u :: rest =>
    if short ≤ 0 then ⟨[], u :: rest, short⟩
    else if 0 < held u then
      let g := gather held (short - held u) rest
      { g with picks := u :: g.picks }
    else
      let g := gather held short rest
      { g with others := u :: g.others }

/-- One candidate that covers the whole shortfall keeps the inputs few; otherwise holders add up. -/
def pickAsset (held : Utxo → Int) (missing : Int) (candidates : List Utxo) : Gathered :=
  match extract? (missing ≤ held ·) candidates with
  | some (u, others) => ⟨[u], others, missing - held u⟩
  | none =>
    let g := gather held missing candidates
    { g with picks := g.picks.reverse }

structure Progress where
  remaining : Value
  candidates : List Utxo
  selected : List Utxo

def coverAssets : List (PolicyId × AssetName × Int) → Progress → Except BuildError Progress
  | [], progress => .ok progress
  | (policy, name, _) :: more, progress =>
    let missing := progress.remaining.quantity policy name
    if missing ≤ 0 then coverAssets more progress
    else
      let g := pickAsset (·.value.quantity policy name) missing progress.candidates
      if 0 < g.short then .error (.missingAsset policy name g.short)
      else
        coverAssets more
          { remaining := g.picks.foldl (fun v u => v.monus u.value) progress.remaining
            candidates := g.others
            selected := progress.selected ++ g.picks }

/-! ### Lovelace -/

/-- Candidates in turn until nothing is needed, and what is needed after them. -/
def takeCoin (needed : Nat) : List Utxo → List Utxo × Nat
  | [] => ([], needed)
  | u :: rest =>
    if needed = 0 then ([], 0)
    else
      let (picks, left) := takeCoin (needed - u.coin.toNat) rest
      (u :: picks, left)

def totalCoin? (utxos : List Utxo) : Option Amount := Amount.sum? (utxos.map Utxo.coin)

def available (committed : Value) (selected others : List Utxo) : Except Failure Amount := do
  let picked ← expectTotal (totalCoin? selected)
  let unpicked ← expectTotal (totalCoin? others)
  return Amount.clamp (committed.coin.toNat + picked.toNat + unpicked.toNat)

/-- The lovelace still needed, once the assets are covered. -/
def coverCoin (required committed : Value) (progress : Progress) : Except Failure (List Utxo) :=
  let (picks, left) := takeCoin progress.remaining.coin.toNat progress.candidates
  if left = 0 then .ok (progress.selected ++ picks)
  else do
    let amount ← available committed progress.selected progress.candidates
    .error (.refused (.insufficientFunds required.coin amount))

/-- Picks that together with `committed` cover `required`, in the order they were picked. -/
def selectFrom (candidates : List Utxo) (required committed : Value) : Except Failure (List Utxo) :=
  let remaining := required.monus committed
  match coverAssets remaining.positive ⟨remaining, candidates, []⟩ with
  | .error e => .error (.refused e)
  | .ok progress => coverCoin required committed progress

/-- Outputs in `used` are never picked. -/
def select (pool : List Utxo) (used : SortedSet TxIn) (required committed : Value) :
    Except Failure (List Utxo) :=
  selectFrom (candidates pool used) required committed

/-! ### Picks are candidates -/

theorem subset_dropRepeats (l : List Utxo) : dropRepeats l ⊆ l := by
  fun_induction dropRepeats l with
  | case1 => simp
  | case2 u rest ih =>
    have tail : rest.dropWhile (·.ref = u.ref) ⊆ rest := (List.dropWhile_sublist _).subset
    exact List.cons_subset_cons u (List.Subset.trans ih tail)

theorem subset_ranked (pool : List Utxo) : ranked pool ⊆ pool := fun _ h =>
  List.mem_mergeSort.1 (subset_dropRepeats _ h)

theorem subset_of_extract? {p : Utxo → Bool} {l others : List Utxo} {u : Utxo}
    (h : extract? p l = some (u, others)) : u ∈ l ∧ others ⊆ l := by
  induction l generalizing u others with
  | nil => simp [extract?] at h
  | cons v rest ih =>
    rw [extract?] at h
    split at h
    · cases h; simp
    · obtain ⟨⟨w, tail⟩, found, same⟩ := Option.map_eq_some_iff.1 h
      cases same
      obtain ⟨mem, sub⟩ := ih found
      exact ⟨.tail _ mem, List.cons_subset_cons v sub⟩

theorem subset_gather (held : Utxo → Int) (short : Int) (l : List Utxo) :
    (gather held short l).picks ⊆ l ∧ (gather held short l).others ⊆ l := by
  fun_induction gather held short l with
  | case1 => simp
  | case2 => simp
  | case3 short u rest _ _ g ih =>
    exact ⟨List.cons_subset_cons u ih.1, List.subset_cons_of_subset u ih.2⟩
  | case4 short u rest _ _ g ih =>
    exact ⟨List.subset_cons_of_subset u ih.1, List.cons_subset_cons u ih.2⟩

theorem subset_pickAsset (held : Utxo → Int) (missing : Int) (l : List Utxo) :
    (pickAsset held missing l).picks ⊆ l ∧ (pickAsset held missing l).others ⊆ l := by
  unfold pickAsset
  split
  · rename_i found
    obtain ⟨mem, sub⟩ := subset_of_extract? found
    exact ⟨by simpa using mem, sub⟩
  · obtain ⟨picks, others⟩ := subset_gather held missing l
    exact ⟨fun u h => picks (List.mem_reverse.1 h), others⟩

theorem subset_of_coverAssets {assets : List (PolicyId × AssetName × Int)} {l : List Utxo}
    {start result : Progress} (h : coverAssets assets start = .ok result)
    (candidates : start.candidates ⊆ l) (selected : start.selected ⊆ l) :
    result.candidates ⊆ l ∧ result.selected ⊆ l := by
  fun_induction coverAssets assets start with
  | case1 => cases h; exact ⟨candidates, selected⟩
  | case2 _ _ _ _ _ _ _ ih => exact ih h candidates selected
  | case3 => cases h
  | case4 policy name _ more progress missing _ g _ ih =>
    obtain ⟨picks, others⟩ := subset_pickAsset (·.value.quantity policy name) missing progress.candidates
    exact ih h (List.Subset.trans others candidates)
      (List.append_subset.2 ⟨selected, List.Subset.trans picks candidates⟩)

theorem subset_takeCoin (needed : Nat) (l : List Utxo) : (takeCoin needed l).1 ⊆ l := by
  induction l generalizing needed with
  | nil => simp [takeCoin]
  | cons u rest ih =>
    rw [takeCoin]
    split
    · simp
    · exact List.cons_subset_cons u (ih _)

theorem subset_of_coverCoin {l picks : List Utxo} {required committed : Value} {progress : Progress}
    (h : coverCoin required committed progress = .ok picks) (candidates : progress.candidates ⊆ l)
    (selected : progress.selected ⊆ l) : picks ⊆ l := by
  simp only [coverCoin] at h
  split at h
  · cases h
    exact List.append_subset.2 ⟨selected, List.Subset.trans (subset_takeCoin _ _) candidates⟩
  · cases found : available committed progress.selected progress.candidates <;>
      simp [found, bind, Except.bind] at h

theorem subset_of_selectFrom {l picks : List Utxo} {required committed : Value}
    (h : selectFrom l required committed = .ok picks) : picks ⊆ l := by
  simp only [selectFrom] at h
  split at h
  · cases h
  · rename_i covered
    obtain ⟨others, selected⟩ := subset_of_coverAssets covered (List.Subset.refl l) (by simp)
    exact subset_of_coverCoin h others selected

end ConwayTx.Selection
