import ConwayTx.Proofs.Cbor.KeyOrder
import ConwayTx.Proofs.ScriptIntegrity
import ConwayTx.Proofs.Transaction.Framing

/-!
# The order of a transaction's maps

The maps of a body are sorted maps of assets and withdrawals, and fields under increasing numbers.
Either order is the one of the encoded keys (`TxBody.isOrdered_toCbor`). Witnesses and metadata are
ordered around what callers put in, data for scripts and labelled data (`Transaction.Ordered`).
Language views are sorted by shorter keys first, which is the same order on the keys they have
(`ScriptIntegrity.inOrder_views`).
-/

namespace ConwayTx

open Outcome Cbor

/-! ### Keys -/

theorem Digest.key_lt {size : Nat} (word : size < UInt64.size) {a b : Digest size}
    (before : compare a b = .lt) :
    compare (Cbor.bytes a.bytes).encode (Cbor.bytes b.bytes).encode = .lt :=
  bytes_lt (by rwa [b.length_eq]) (.inr ⟨a.length_eq.trans b.length_eq.symm, before⟩)

theorem AssetName.key_lt {a b : AssetName} (before : compare a b = .lt) :
    compare (Cbor.bytes a.bytes).encode (Cbor.bytes b.bytes).encode = .lt := by
  refine bytes_lt (b.length_le.trans_lt (by decide)) ?_
  replace before : (compare a.bytes.length b.bytes.length).then (compare a.bytes b.bytes) = .lt :=
    before
  rcases Ordering.then_eq_lt.1 before with shorter | ⟨same, before⟩
  · exact .inl (compare_lt_iff_lt.1 shorter)
  · exact .inr ⟨compare_eq_iff_eq.1 same, before⟩

theorem StakeAddress.length_toBytes (a : StakeAddress) : a.toBytes.length = 29 :=
  congrArg (· + 1) a.credential.hash.length_eq

theorem StakeAddress.key_lt {a b : StakeAddress} (before : compare a b = .lt) :
    compare a.toCbor.encode b.toCbor.encode = .lt := by
  refine bytes_lt ?_ (.inr ⟨?_, before⟩)
  · rw [b.length_toBytes]
    decide
  · rw [a.length_toBytes, b.length_toBytes]

/-- A pointer is an array of two numbers, the tag before the index. -/
theorem RedeemerPointer.key_lt {a b : RedeemerPointer} (before : compare a b = .lt) :
    compare a.toCbor.encode b.toCbor.encode = .lt := by
  have written (p : RedeemerPointer) : p.toCbor.encode =
      head 4 2 ++ (head 0 p.tag.number.toNat ++ (head 0 p.index.toNat ++ [])) := rfl
  rw [written, written, Bytes.compare_append_left]
  replace before : (compare a.tag.number b.tag.number).then (compare a.index b.index) = .lt := before
  rcases Ordering.then_eq_lt.1 before with tag | ⟨same, index⟩
  · refine head_lt (by decide) ?_ ?_ _ _
    · exact UInt8.lt_iff_toNat_lt.1 (compareOfLessAndEq_eq_lt.1 tag)
    · exact b.tag.number.toNat_lt.trans (by decide)
  · rw [Std.LawfulEqCmp.eq_of_compare same, Bytes.compare_append_left]
    refine head_lt (by decide) ?_ ?_ _ _
    · exact UInt32.lt_iff_toNat_lt.1 (compareOfLessAndEq_eq_lt.1 index)
    · exact b.index.toNat_lt.trans (by decide)

theorem Metadata.label_lt {a b : UInt64} (before : compare a b = .lt) :
    compare (Cbor.unsigned a).encode (Cbor.unsigned b).encode = .lt :=
  unsigned_lt (compareOfLessAndEq_eq_lt.1 before)

/-- A map that is written entry by entry, from keys in an order that encoding keeps. -/
theorem isOrdered_written {ε κ β : Type} {before : κ → κ → Prop} {key : κ → Cbor}
    {l : List (κ × β)} {write : κ × β → Except ε (Cbor × Cbor)} {entries : List (Cbor × Cbor)}
    (increasing : (l.map Prod.fst).Pairwise before)
    (mono : ∀ a b, before a b → compare (key a).encode (key b).encode = .lt)
    (written : l.mapM write = .ok entries)
    (names : ∀ e item, write e = .ok item → item.1 = key e.1)
    (parts : ∀ e ∈ l, ∀ item, write e = .ok item →
      item.1.isOrdered = true ∧ item.2.isOrdered = true) :
    (Cbor.map entries).isOrdered = true := by
  have named : entries.map Prod.fst = (l.map Prod.fst).map key := by
    rw [List.map_map]
    exact map_of_mapM_ok _ written names
  exact isOrdered_map.2 ⟨inOrder_of_keys increasing named mono, forall_mapM_ok written parts⟩

/-! ### Items without maps -/

@[simp] theorem Credential.isOrdered_toCbor (c : Credential) : c.toCbor.isOrdered = true := rfl

@[simp] theorem DRep.isOrdered_toCbor (d : DRep) : d.toCbor.isOrdered = true := by
  cases d <;> rfl

@[simp] theorem Relay.isOrdered_toCbor (r : Relay) : r.toCbor.isOrdered = true := by
  cases r <;> simp [toCbor]

@[simp] theorem PoolParams.isOrdered_items (p : PoolParams) :
    ∀ item ∈ p.items, item.isOrdered = true := by
  simp [items, Fraction.toCbor, StakeAddress.toCbor, PoolMetadata.toCbor]

@[simp] theorem Certificate.isOrdered_toCbor (keyDeposit : Amount) (c : Certificate) :
    (c.toCbor keyDeposit).isOrdered = true := by
  cases c with
  | poolRegistration params => simpa [toCbor, items] using params.isOrdered_items
  | _ => simp [toCbor, items]

@[simp] theorem KeyWitness.isOrdered_toCbor (w : KeyWitness) : w.toCbor.isOrdered = true := rfl

namespace NativeScript

mutual

@[simp] theorem isOrdered_toCbor (s : NativeScript) : s.toCbor.isOrdered = true := by
  cases s with
  | all scripts | any scripts | atLeast _ scripts => simpa [toCbor] using isOrdered_allToCbor scripts
  | signedBy | notBefore | notAfter => rfl

theorem isOrdered_allToCbor (scripts : List NativeScript) :
    ∀ item ∈ allToCbor scripts, item.isOrdered = true := by
  cases scripts with
  | nil => exact List.forall_mem_nil _
  | cons script rest =>
    exact List.forall_mem_cons.2 ⟨isOrdered_toCbor script, isOrdered_allToCbor rest⟩

end

end NativeScript

@[simp] theorem Datum.isOrdered_toCbor (d : Datum) : d.toCbor.isOrdered = true := by
  cases d <;> rfl

@[simp] theorem Script.isOrdered_toCbor (s : Script) : s.toCbor.isOrdered = true := rfl

@[simp] theorem Address.isOrdered_toCbor (a : Address) : a.toCbor.isOrdered = true := rfl

@[simp] theorem TxIn.isOrdered_toCbor (r : TxIn) : r.toCbor.isOrdered = true := rfl

/-! ### Values and mints -/

namespace MultiAsset

/-- Leaving entries out leaves the others in their order. -/
theorem increasing_kept (keep : Int → Bool) (m : MultiAsset) :
    ((m.kept keep).map Prod.fst).Pairwise (fun a b => compare a b = .lt) ∧
      ∀ e ∈ m.kept keep, (e.2.map Prod.fst).Pairwise fun a b => compare a b = .lt := by
  constructor
  · have sub : ((m.kept keep).map Prod.fst).Sublist m.keys := by
      refine (List.filter_sublist.map Prod.fst).trans ?_
      rw [List.map_map]
      exact List.Sublist.refl _
    exact m.keys_increasing.sublist sub
  · intro e mem
    obtain ⟨listed, _⟩ := List.mem_filter.1 mem
    obtain ⟨⟨policy, names⟩, _, rfl⟩ := List.mem_map.1 listed
    exact names.keys_increasing.sublist (List.filter_sublist.map Prod.fst)

variable {write : Int → Except EncodeError Cbor}

theorem isOrdered_quantities (plain : ∀ q c, write q = .ok c → c.isOrdered = true)
    {names : List (AssetName × Int)} {c : Cbor}
    (increasing : (names.map Prod.fst).Pairwise fun a b => compare a b = .lt)
    (h : quantitiesToCbor write names = .ok c) : c.isOrdered = true := by
  obtain ⟨entries, written, h⟩ := bind_ok h
  rw [← pure_ok h]
  refine isOrdered_written increasing (fun _ _ => AssetName.key_lt) written ?_ ?_
  · intro e item one
    obtain ⟨quantity, _, one⟩ := bind_ok one
    rw [← pure_ok one]
  · intro e _ item one
    obtain ⟨quantity, wrote, one⟩ := bind_ok one
    rw [← pure_ok one]
    exact ⟨rfl, plain _ _ wrote⟩

theorem isOrdered_kept (plain : ∀ q c, write q = .ok c → c.isOrdered = true) {keep : Int → Bool}
    {m : MultiAsset} {c : Cbor} (h : keptToCbor write (m.kept keep) = .ok c) :
    c.isOrdered = true := by
  obtain ⟨policies, names⟩ := increasing_kept keep m
  obtain ⟨entries, written, h⟩ := bind_ok h
  rw [← pure_ok h]
  refine isOrdered_written policies (fun _ _ => Digest.key_lt (by decide)) written ?_ ?_
  · intro e item one
    obtain ⟨quantities, _, one⟩ := bind_ok one
    rw [← pure_ok one]
  · intro e mem item one
    obtain ⟨quantities, wrote, one⟩ := bind_ok one
    rw [← pure_ok one]
    exact ⟨rfl, isOrdered_quantities plain (names e mem) wrote⟩

theorem isOrdered_toCbor {m : MultiAsset} {c : Cbor} (h : m.toCbor = .ok c) :
    c.isOrdered = true := by
  refine isOrdered_kept (fun q c held => ?_) h
  unfold heldToCbor at held
  split at held <;> cases held
  rfl

theorem isOrdered_mintToCbor {m : MultiAsset} {c : Cbor} (h : m.mintToCbor = .ok c) :
    c.isOrdered = true := by
  refine isOrdered_kept (fun q c minted => ?_) h
  unfold mintedToCbor at minted
  split at minted <;> cases minted
  exact isOrdered_ofInt64 _

end MultiAsset

theorem Value.isOrdered_toCbor {v : Value} {c : Cbor} (h : v.toCbor = .ok c) :
    c.isOrdered = true := by
  unfold toCbor at h
  split at h
  · obtain ⟨assets, written, h⟩ := bind_ok h
    rw [← pure_ok h]
    simpa using MultiAsset.isOrdered_toCbor written
  · cases h
    rfl

/-! ### Bodies -/

theorem TxOutput.isOrdered_toCbor {o : TxOutput} {c : Cbor} (h : o.toCbor = .ok c) :
    c.isOrdered = true := by
  obtain ⟨value, written, h⟩ := bind_ok h
  rw [← pure_ok h]
  have numbers : [0, 1, 2, 3].Pairwise fun j k : UInt8 => j < k := by decide
  refine isOrdered_fields numbers ?_
  simp [Value.isOrdered_toCbor written]

@[simp] theorem Withdrawals.isOrdered_toCbor (w : Withdrawals) : w.toCbor.isOrdered = true := by
  refine isOrdered_map.2 ⟨inOrder_of_keys w.keys_increasing ?_ fun _ _ => StakeAddress.key_lt, ?_⟩
  · rw [SortedMap.keys, List.map_map, List.map_map]
    rfl
  · intro e mem
    obtain ⟨⟨address, amount⟩, _, rfl⟩ := List.mem_map.1 mem
    exact ⟨rfl, rfl⟩

namespace TxBody

@[simp] theorem isOrdered_refsToCbor (refs : SortedSet TxIn) :
    (refsToCbor refs).isOrdered = true := by
  simp [refsToCbor]

@[simp] theorem isOrdered_signersToCbor (keys : SortedSet KeyHash) :
    (signersToCbor keys).isOrdered = true := by
  simp [signersToCbor]

@[simp] theorem unlessEmpty_eq_some_iff {κ α : Type} [Ord κ] {m : SortedMap κ α} {item c : Cbor} :
    unlessEmpty m item = some c ↔ m.isEmpty = false ∧ item = c := by
  unfold unlessEmpty
  split <;> simp [*]

/-- Whatever is in a body, all its maps are in order. -/
theorem isOrdered_toCbor {b : TxBody} {c : Cbor} (h : b.toCbor = .ok c) : c.isOrdered = true := by
  obtain ⟨outputs, mint, returned, outputsOk, mintOk, returnedOk, rfl⟩ := toCbor_ok h
  have numbers : [0, 1, 2, 3, 4, 5, 7, 8, 9, 11, 13, 14, 15, 16, 17, 18].Pairwise
      fun j k : UInt8 => j < k := by decide
  have paid : ∀ item ∈ outputs, item.isOrdered = true :=
    forall_mapM_ok outputsOk fun _ _ _ => TxOutput.isOrdered_toCbor
  have minted : ∀ item ∈ mint, item.isOrdered = true :=
    forall_option_mapM_ok mintOk fun _ _ _ => MultiAsset.isOrdered_mintToCbor
  have change : ∀ item ∈ returned, item.isOrdered = true :=
    forall_option_mapM_ok returnedOk fun _ _ _ => TxOutput.isOrdered_toCbor
  refine isOrdered_fields numbers ?_
  simp only [Option.mem_def] at minted change
  simpa [fields, or_imp, forall_and] using ⟨paid, minted, change⟩

end TxBody

/-! ### Witnesses and metadata -/

theorem Redeemers.ordered_toCbor (rs : Redeemers) :
    ∃ entries, rs.toCbor = .map entries ∧ InOrder entries ∧
      ∀ e ∈ entries, e.1.isOrdered = true ∧ ∃ r ∈ rs.values, e.2 = r.toCbor := by
  refine ⟨_, rfl, inOrder_of_keys rs.keys_increasing ?_ fun _ _ => RedeemerPointer.key_lt, ?_⟩
  · rw [SortedMap.keys, List.map_map, List.map_map]
    rfl
  · intro e mem
    obtain ⟨⟨pointer, redeemer⟩, listed, rfl⟩ := List.mem_map.1 mem
    exact ⟨rfl, redeemer, List.mem_map_of_mem listed, rfl⟩

namespace WitnessSet

@[simp] theorem unlessEmpty_eq_some_iff {items : List Cbor} {c : Cbor} :
    unlessEmpty items = some c ↔ items ≠ [] ∧ .array items = c := by
  unfold unlessEmpty
  split <;> simp_all

/-- Datums and redeemers hold data of callers; the maps of the other fields are all in order. -/
theorem ordered_toCbor (w : WitnessSet) :
    ∃ entries, w.toCbor = .map entries ∧ InOrder entries ∧
      ∀ e ∈ entries, ∃ key, e.1 = small key ∧ (e.2.isOrdered = true ∨
        e.2 = datumsToCbor w.datums ∨ e.2 = w.redeemers.toCbor) := by
  have numbers : [0, 1, 3, 4, 5, 6, 7].Pairwise fun j k : UInt8 => j < k := by decide
  have plain {items : List Cbor} (ordered : ∀ item ∈ items, item.isOrdered = true) :
      ∀ c ∈ unlessEmpty items, c.isOrdered = true := by
    rintro c written
    obtain ⟨_, rfl⟩ := unlessEmpty_eq_some_iff.1 written
    exact isOrdered_array.2 ordered
  refine ⟨_, rfl, inOrder_present numbers, forall_mem_present (p := fun _ c =>
    c.isOrdered = true ∨ c = datumsToCbor w.datums ∨ c = w.redeemers.toCbor) ?_⟩
  have scripts (version : PlutusVersion) : ∀ item ∈ w.scriptsOf version, item.isOrdered = true := by
    intro item mem
    obtain ⟨script, _, rfl⟩ := List.mem_map.1 mem
    rfl
  have given {empty : Bool} {item : Cbor} : ∀ c ∈ if empty then none else some item, c = item := by
    cases empty <;> simp
  simp only [List.forall_mem_cons]
  exact ⟨fun c mem => .inl (plain (by simp) c mem), fun c mem => .inl (plain (by simp) c mem),
    fun c mem => .inl (plain (scripts .v1) c mem), fun c mem => .inr (.inl (given c mem)),
    fun c mem => .inr (.inr (given c mem)), fun c mem => .inl (plain (scripts .v2) c mem),
    fun c mem => .inl (plain (scripts .v3) c mem), List.forall_mem_nil _⟩

end WitnessSet

namespace Metadata

theorem ordered_toCbor {m : Metadata} {c : Cbor} (h : m.toCbor = .ok c) :
    ∃ labels, c = .map labels ∧ InOrder labels ∧
      ∀ e ∈ labels, ∃ label datum, (label, datum) ∈ m.entries ∧
        e.1 = .unsigned label ∧ datum.toCbor = .ok e.2 := by
  rw [toCbor, map_eq_pure_bind] at h
  obtain ⟨labels, written, h⟩ := bind_ok h
  refine ⟨labels, (pure_ok h).symm, inOrder_of_keys m.keys_increasing ?_ fun _ _ => label_lt,
    forall_mapM_ok written ?_⟩
  · rw [SortedMap.keys, List.map_map]
    refine map_of_mapM_ok _ written ?_
    intro e item one
    obtain ⟨datum, _, one⟩ := bind_ok one
    rw [← pure_ok one]
    rfl
  · intro e listed item one
    obtain ⟨datum, wrote, one⟩ := bind_ok one
    rw [← pure_ok one]
    exact ⟨e.1, e.2, listed, rfl, wrote⟩

end Metadata

/-! ### Language views -/

namespace ScriptIntegrity

theorem languageView_key (v : PlutusVersion) (costs : List Int64) :
    (languageView v costs).1 = (languageView v []).1 := by
  cases v <;> rfl

/-- The first version's key is the longest, as a byte string, and comes last in either order. -/
theorem key_lt_of_keyBefore {v w : PlutusVersion} (distinct : v ≠ w) (costs costs' : List Int64)
    (before : keyBefore (languageView v costs).1 (languageView w costs').1 = true) :
    compare (languageView v costs).1.encode (languageView w costs').1.encode = .lt := by
  rw [languageView_key v, languageView_key w] at *
  revert distinct before
  cases v <;> cases w <;> decide

theorem languageView_key_inj {v w : PlutusVersion} {costs costs' : List Int64}
    (same : (languageView v costs).1 = (languageView w costs').1) : v = w := by
  rw [languageView_key v, languageView_key w] at same
  revert same
  cases v <;> cases w <;> simp [languageView, Cbor.small, PlutusVersion.languageId]

variable {versions : SortedSet PlutusVersion} {models : CostModels}

theorem priced_of_languageViews {c : Cbor} (h : languageViews versions models = .ok c) :
    Priced versions models := by
  obtain ⟨_, priced, _⟩ := bind_ok h
  intro v mem
  obtain ⟨view, _, one⟩ := of_mem_mapM_ok priced mem
  rw [SortedMap.contains]
  cases found : models.find? v with
  | none => rw [found] at one; cases one
  | some costs => rfl

theorem views_of_languageViews {c : Cbor} (h : languageViews versions models = .ok c) :
    c = .map (views versions models) := by
  rw [languageViews_ok (priced_of_languageViews h)] at h
  exact (Except.ok.inj h).symm

theorem inOrder_views (versions : SortedSet PlutusVersion) (models : CostModels) :
    InOrder (views versions models) := by
  have sorted : (views versions models).Pairwise fun a b => keyBefore a.1 b.1 = true := by
    refine List.pairwise_mergeSort ?_ ?_ _
    · intro a b c
      exact Std.TransCmp.isLE_trans
    · intro a b
      exact SortedMap.isLE_or_isLE _ _ _
  have distinct : ((views versions models).map Prod.fst).Nodup := by
    rw [views, ((List.mergeSort_perm _ _).map _).nodup_iff, List.map_map]
    exact versions.nodup_keys.map fun _ _ => languageView_key_inj
  rw [InOrder, List.pairwise_map]
  refine (sorted.and (List.pairwise_map.1 distinct)).imp_of_mem ?_
  rintro _ _ mem mem' ⟨before, apart⟩
  obtain ⟨v, _, rfl⟩ := mem_views.1 mem
  obtain ⟨w, _, rfl⟩ := mem_views.1 mem'
  refine key_lt_of_keyBefore ?_ _ _ before
  rintro rfl
  rw [languageView_key, languageView_key v] at apart
  exact apart rfl

end ScriptIntegrity

/-! ### The whole -/

namespace Transaction

/-- An encoded transaction and its parts. All maps are in order, but for those inside data and
metadata of callers, which are written as they are. -/
structure Ordered (t : Transaction) (bytes : Bytes) (body : Cbor)
    (witnesses redeemers : List (Cbor × Cbor)) (metadata : Option Cbor) : Prop where
  written : bytes = (Cbor.array [body, .map witnesses, .bool t.isValid, .option metadata]).encode
  body_written : t.body.toCbor = .ok body
  body_ordered : body.isOrdered = true
  witnesses_inOrder : InOrder witnesses
  witness_fields : ∀ e ∈ witnesses, ∃ field, e.1 = small field ∧ (e.2.isOrdered = true ∨
    e.2 = datumsToCbor t.witnesses.datums ∨ e.2 = .map redeemers)
  redeemers_inOrder : InOrder redeemers
  redeemer_entries : ∀ e ∈ redeemers, e.1.isOrdered = true ∧
    ∃ r ∈ t.witnesses.redeemers.values, e.2 = r.toCbor
  metadata_inOrder : ∀ item ∈ metadata, ∃ m ∈ t.metadata, ∃ labels,
    item = .map labels ∧ InOrder labels ∧ ∀ e ∈ labels, ∃ label datum,
      (label, datum) ∈ m.entries ∧ e.1 = .unsigned label ∧ datum.toCbor = .ok e.2

/-- The maps of every encoded transaction are in order, and so are the language views that stand in
script integrity bytes. -/
theorem encode_ordered {t : Transaction} {bytes : Bytes} (h : t.encode = .ok bytes) :
    (∃ body witnesses redeemers metadata, t.Ordered bytes body witnesses redeemers metadata) ∧
      ∀ versions models views, ScriptIntegrity.languageViews versions models = .ok views →
        ∃ entries, views = .map entries ∧ InOrder entries := by
  constructor
  · obtain ⟨body, metadata, bodyOk, metadataOk, rfl⟩ := encode_ok h
    obtain ⟨witnesses, witnessesEq, witnessKeys, witnessFields⟩ := t.witnesses.ordered_toCbor
    obtain ⟨redeemers, redeemersEq, redeemerKeys, redeemerEntries⟩ :=
      Redeemers.ordered_toCbor t.witnesses.redeemers
    refine ⟨body, witnesses, redeemers, metadata, by rw [witnessesEq], bodyOk,
      TxBody.isOrdered_toCbor bodyOk, witnessKeys, ?_, redeemerKeys, redeemerEntries,
      forall_option_mapM_ok metadataOk ?_⟩
    · rwa [redeemersEq] at witnessFields
    · intro m given item wrote
      exact ⟨m, given, Metadata.ordered_toCbor wrote⟩
  · intro versions models views wrote
    exact ⟨_, ScriptIntegrity.views_of_languageViews wrote, ScriptIntegrity.inOrder_views _ _⟩

theorem encode_ordered_several :
    let policies : List PolicyId := [⟨List.replicate 28 7, rfl⟩, .zero]
    let names : List AssetName := [⟨[2, 1], by decide⟩, ⟨[3], by decide⟩, ⟨[2, 0], by decide⟩]
    let assets : MultiAsset := .ofList (policies.map (·, .ofList (names.map (·, 1))))
    let t : Transaction := {
      body := {
        outputs := [⟨.enterprise .testnet (.key .zero), ⟨5, some assets⟩, none, none⟩],
        mint := some assets,
        withdrawals := .ofList [(⟨.testnet, .script .zero⟩, 1), (⟨.testnet, .key .zero⟩, 2)] },
      witnesses := {
        redeemers := .ofList [(⟨.mint, 0⟩, ⟨.unit, ⟨1, 2⟩⟩), (⟨.spend, 300⟩, ⟨.unit, ⟨1, 2⟩⟩),
          (⟨.spend, 2⟩, ⟨.unit, ⟨1, 2⟩⟩)] },
      metadata := some (.ofList [(70000, .int 1), (20, .int 2), (300, .int 3)]) }
    let versions : SortedSet PlutusVersion := .ofKeys [.v1, .v2, .v3]
    let models : CostModels := .ofList [(.v1, [1]), (.v2, [2]), (.v3, [3])]
    (∃ bytes body witnesses redeemers metadata, t.encode = .ok bytes ∧
      t.Ordered bytes body witnesses redeemers metadata) ∧
      ∃ entries, ScriptIntegrity.languageViews versions models = .ok (.map entries) ∧
        entries.length = 3 ∧ InOrder entries := by
  intro policies names assets t versions models
  obtain ⟨bytes, encoded⟩ := ok_of_isSome (show t.encode.toOption.isSome = true by decide +kernel)
  obtain ⟨⟨body, witnesses, redeemers, metadata, ordered⟩, views⟩ := encode_ordered encoded
  refine ⟨⟨bytes, body, witnesses, redeemers, metadata, encoded, ordered⟩, ?_⟩
  have priced : ScriptIntegrity.Priced versions models := by
    unfold ScriptIntegrity.Priced
    decide
  have written := ScriptIntegrity.languageViews_ok priced
  obtain ⟨entries, same, inOrder⟩ := views versions models _ written
  rw [same] at written
  refine ⟨entries, written, ?_, inOrder⟩
  rw [← Cbor.map.inj same, ScriptIntegrity.views, List.length_mergeSort, List.length_map]
  rfl

end Transaction

end ConwayTx
