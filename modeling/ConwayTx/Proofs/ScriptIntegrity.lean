import ConwayTx.Proofs.Cbor.Parts
import ConwayTx.Proofs.Outcome
import ConwayTx.Proofs.PlutusData
import ConwayTx.Proofs.SortedMap
import ConwayTx.ScriptIntegrity

/-!
# What the script integrity bytes identify

Three encodings stand one after another, the middle one only if there are datums. A map never opens
like an array, so they are read back (`bytes_eq_iff`): redeemers, datums, versions, and the cost
models of those versions, and nothing else.
-/

namespace ConwayTx

/-! ### Redeemers and datums -/

theorem RedeemerPointer.toCbor_inj {a b : RedeemerPointer} (same : a.toCbor = b.toCbor) :
    a = b := by
  have parts := Cbor.array.inj same
  obtain ⟨tags, others⟩ := List.cons.inj parts
  obtain ⟨indices, _⟩ := List.cons.inj others
  exact RedeemerPointer.ext (tagNumber_inj (Cbor.small_inj tags)) (Cbor.index_inj indices)

theorem ExUnits.toCbor_inj {a b : ExUnits} (same : a.toCbor = b.toCbor) : a = b := by
  obtain ⟨mem, steps⟩ := a
  obtain ⟨mem', steps'⟩ := b
  cases same
  rfl

theorem Redeemer.toCbor_inj {a b : Redeemer} (same : a.toCbor = b.toCbor) : a = b := by
  obtain ⟨data, units⟩ := a
  obtain ⟨data', units'⟩ := b
  obtain ⟨first, others⟩ := List.cons.inj (Cbor.array.inj same)
  obtain ⟨second, _⟩ := List.cons.inj others
  obtain rfl : data = data' := PlutusData.toCbor_inj first
  obtain rfl : units = units' := ExUnits.toCbor_inj second
  rfl

theorem Redeemers.toCbor_inj {a b : Redeemers} (same : Redeemers.toCbor a = Redeemers.toCbor b) :
    a = b := by
  refine SortedMap.eq_of_map_entries ?_ (Cbor.map.inj same)
  rintro ⟨pointer, redeemer⟩ ⟨pointer', redeemer'⟩ entries
  obtain ⟨pointers, redeemers⟩ := Prod.mk.inj entries
  rw [RedeemerPointer.toCbor_inj pointers, Redeemer.toCbor_inj redeemers]

theorem datumsToCbor_inj {xs ys : List PlutusData} (same : datumsToCbor xs = datumsToCbor ys) :
    xs = ys := by
  refine List.map_injective_iff.2 ?_ (Cbor.array.inj same)
  intro a b
  exact PlutusData.toCbor_inj

namespace ScriptIntegrity

/-! ### Language views -/

theorem costs_inj {xs ys : List Int64} (same : xs.map Cbor.ofInt64 = ys.map Cbor.ofInt64) :
    xs = ys := by
  refine List.map_injective_iff.2 ?_ same
  intro m n
  exact Cbor.ofInt64_inj

theorem languageView_inj {v w : PlutusVersion} {costs costs' : List Int64}
    (short : (languageView v costs).2.length < UInt64.size)
    (same : languageView v costs = languageView w costs') : v = w ∧ costs = costs' := by
  obtain ⟨keys, values⟩ := Prod.mk.inj same
  cases v with
  | v1 =>
    cases w with
    | v1 => exact ⟨rfl, costs_inj (Cbor.openArray.inj (Cbor.bytes_encode_inj short values))⟩
    | _ => cases keys
  | v2 =>
    cases w with
    | v2 => exact ⟨rfl, costs_inj (Cbor.array.inj values)⟩
    | _ => cases keys
  | v3 =>
    cases w with
    | v3 => exact ⟨rfl, costs_inj (Cbor.array.inj values)⟩
    | _ => cases keys

/-- Each of the versions has a cost model. -/
def Priced (versions : SortedSet PlutusVersion) (models : CostModels) : Prop :=
  ∀ v ∈ versions.keys, models.contains v = true

/-- The views of the versions, in the order of their keys. -/
def views (versions : SortedSet PlutusVersion) (models : CostModels) : List (Cbor × Cbor) :=
  (versions.keys.map fun v => languageView v ((models.find? v).getD [])).mergeSort
    fun a b => keyBefore a.1 b.1

variable {versions versions' : SortedSet PlutusVersion} {models models' : CostModels}

theorem languageViews_ok (priced : Priced versions models) :
    languageViews versions models = .ok (.map (views versions models)) := by
  unfold languageViews
  rw [Outcome.mapM_of_ok fun v => languageView v ((models.find? v).getD [])]
  · rfl
  · intro v mem
    obtain ⟨costs, found⟩ := Option.isSome_iff_exists.1 (priced v mem)
    rw [found]
    rfl

theorem mem_views {view : Cbor × Cbor} :
    view ∈ views versions models ↔
      ∃ v ∈ versions.keys, languageView v ((models.find? v).getD []) = view := by
  rw [views, (List.mergeSort_perm _ _).mem_iff, List.mem_map]

/-- A version that is among the views is among those of equal views, with the same costs. -/
theorem view_of_views_eq (priced : Priced versions models) (priced' : Priced versions' models')
    (short : (Cbor.map (views versions models)).length < UInt64.size)
    (same : views versions models = views versions' models') {v : PlutusVersion}
    (mem : v ∈ versions.keys) : v ∈ versions'.keys ∧ models.find? v = models'.find? v := by
  have listed : languageView v ((models.find? v).getD []) ∈ views versions models :=
    mem_views.2 ⟨v, mem, rfl⟩
  have fits := (Cbor.length_le_of_mem_map listed).trans_lt short
  rw [same] at listed
  obtain ⟨w, mem', view⟩ := mem_views.1 listed
  obtain ⟨rfl, costs⟩ := languageView_inj fits view.symm
  refine ⟨mem', ?_⟩
  obtain ⟨x, found⟩ := Option.isSome_iff_exists.1 (priced v mem)
  obtain ⟨y, found'⟩ := Option.isSome_iff_exists.1 (priced' v mem')
  rw [found, found'] at costs
  rw [found, found']
  exact congrArg some costs

theorem views_eq_iff (priced : Priced versions models) (priced' : Priced versions' models')
    (short : (Cbor.map (views versions models)).length < UInt64.size) :
    views versions models = views versions' models' ↔
      versions = versions' ∧ ∀ v ∈ versions.keys, models.find? v = models'.find? v := by
  constructor
  · intro same
    refine ⟨SortedMap.ext_keys fun v => ⟨?_, ?_⟩, ?_⟩
    · intro mem
      exact (view_of_views_eq priced priced' short same mem).1
    · intro mem
      rw [same] at short
      exact (view_of_views_eq priced' priced short same.symm mem).1
    · intro v mem
      exact (view_of_views_eq priced priced' short same mem).2
  · rintro ⟨rfl, agree⟩
    unfold views
    congr 1
    refine List.map_congr_left ?_
    intro v mem
    rw [agree v mem]

/-! ### The whole -/

def parts (redeemers : Redeemers) (datums : List PlutusData) (views : List (Cbor × Cbor)) :
    List Cbor :=
  if datums.isEmpty then [redeemers.toCbor, .map views]
  else [redeemers.toCbor, datumsToCbor datums, .map views]

theorem parts_inj {redeemers redeemers' : Redeemers} {datums datums' : List PlutusData}
    {views views' : List (Cbor × Cbor)}
    (same : parts redeemers datums views = parts redeemers' datums' views') :
    redeemers = redeemers' ∧ datums = datums' ∧ views = views' := by
  have first : redeemers.toCbor = redeemers'.toCbor := by
    unfold parts at same
    split_ifs at same <;> exact (List.cons.inj same).1
  refine ⟨Redeemers.toCbor_inj first, ?_⟩
  -- With datums there is one more item.
  cases datums with
  | nil =>
    cases datums' with
    | nil =>
      obtain ⟨second, _⟩ := List.cons.inj (List.cons.inj same).2
      exact ⟨rfl, Cbor.map.inj second⟩
    | cons d ds => cases congrArg List.length same
  | cons d ds =>
    cases datums' with
    | nil => cases congrArg List.length same
    | cons d' ds' =>
      obtain ⟨second, others⟩ := List.cons.inj (List.cons.inj same).2
      exact ⟨datumsToCbor_inj second, Cbor.map.inj (List.cons.inj others).1⟩

theorem bytes_ok (redeemers : Redeemers) (datums : List PlutusData)
    (priced : Priced versions models) :
    bytes redeemers datums versions models =
      .ok (Cbor.encodeAll (parts redeemers datums (views versions models))) := by
  unfold bytes parts
  rw [languageViews_ok priced]
  cases datums with
  | nil => simp [Cbor.encodeAll]
  | cons d ds => simp [Cbor.encodeAll]

theorem length_views_le (redeemers : Redeemers) (datums : List PlutusData)
    (views : List (Cbor × Cbor)) :
    (Cbor.map views).length ≤ (Cbor.encodeAll (parts redeemers datums views)).length := by
  have mem : Cbor.map views ∈ parts redeemers datums views := by
    unfold parts
    split_ifs <;> simp
  rw [Cbor.length_encodeAll]
  exact List.single_le_sum (fun _ _ => Nat.zero_le _) _ (List.mem_map_of_mem mem)

/-- Equal integrity bytes are of equal redeemers, datums and versions, and of cost models that agree
on these versions; models of other versions leave the bytes as they are. Headers state lengths in a
word. -/
theorem bytes_eq_iff (redeemers redeemers' : Redeemers) (datums datums' : List PlutusData)
    (priced : Priced versions models) (priced' : Priced versions' models') :
    ∃ x y, bytes redeemers datums versions models = .ok x ∧
      bytes redeemers' datums' versions' models' = .ok y ∧
      (x.length < UInt64.size →
        (x = y ↔ redeemers = redeemers' ∧ datums = datums' ∧ versions = versions' ∧
          ∀ v ∈ versions.keys, models.find? v = models'.find? v)) := by
  refine ⟨_, _, bytes_ok redeemers datums priced, bytes_ok redeemers' datums' priced', ?_⟩
  intro short
  rw [← views_eq_iff priced priced' ((length_views_le redeemers datums _).trans_lt short)]
  constructor
  · intro same
    exact parts_inj (Cbor.encodeAll_inj short same)
  · rintro ⟨rfl, rfl, same⟩
    rw [same]

theorem bytes_eq_iff_other_version :
    let redeemers : Redeemers := .ofList [(⟨.spend, 0⟩, ⟨.unit, ⟨1000, 2000⟩⟩)]
    let versions : SortedSet PlutusVersion := .ofKeys [.v1]
    let models : CostModels := .ofList [(.v1, [1, -2])]
    let more : CostModels := .ofList [(.v1, [1, -2]), (.v3, [5])]
    ∃ x, x.length < UInt64.size ∧ bytes redeemers [.integer 42] versions models = .ok x ∧
      bytes redeemers [.integer 42] versions more = .ok x := by
  intro redeemers versions models more
  have priced : Priced versions models := by unfold Priced; decide
  have priced' : Priced versions more := by unfold Priced; decide
  obtain ⟨x, y, written, written', same⟩ :=
    bytes_eq_iff redeemers redeemers [.integer 42] [.integer 42] priced priced'
  have short : x.length < UInt64.size := by
    have view : views versions models = [languageView .v1 [1, -2]] := List.mergeSort_singleton _
    have whole := bytes_ok redeemers [.integer 42] priced
    rw [view, written] at whole
    rw [Except.ok.inj whole]
    decide +kernel
  have equal : x = y := (same short).2 ⟨rfl, rfl, rfl, by decide⟩
  exact ⟨x, short, written, equal ▸ written'⟩

end ScriptIntegrity

end ConwayTx
