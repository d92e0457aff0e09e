import ConwayTx.Draft
import ConwayTx.Proofs.Cbor.Fields
import ConwayTx.Proofs.Metadata
import ConwayTx.Proofs.Transaction
import ConwayTx.Proofs.Transaction.Framing
import ConwayTx.Proofs.Transaction.KeyOrder

/-!
# What a transaction's bytes show of its hashes

The hash of scripts is one of bytes that the transaction carries: redeemers and datums as its witness
set has them, with the language views of a set of versions behind (`bytes_bound`). The hash of metadata
is that of the transaction's fourth item. Both are read from the bytes again (`Transaction.Sealed`,
`Hashed.sealed`).
-/

namespace ConwayTx

open Outcome

namespace ScriptIntegrity

variable {redeemers : Redeemers} {datums : List PlutusData} {versions : SortedSet PlutusVersion}
  {models : CostModels}

theorem hash?_ok {hash : Option (Digest 32)}
    (h : hash? redeemers datums versions models = .ok hash) :
    hash.isSome = (!redeemers.isEmpty || !datums.isEmpty) ∧
      ∀ digest ∈ hash, ∃ integrity, bytes redeemers datums versions models = .ok integrity ∧
        digest = blake2b256 integrity := by
  unfold hash? at h
  split at h
  · rename_i unbound
    obtain rfl := pure_ok h
    refine ⟨?_, fun _ mem => by cases mem⟩
    rw [← Bool.not_and, unbound]
    rfl
  · rename_i bound
    obtain ⟨integrity, written, h⟩ := bind_ok h
    obtain rfl := pure_ok h
    constructor
    · rw [← Bool.not_and, Bool.eq_false_of_not_eq_true bound]
      rfl
    · rintro _ ⟨⟩
      exact ⟨integrity, written, rfl⟩

/-! ### Language views -/

/-- The view of a version that has a cost model. For the first one, key and costs are wrapped in byte
strings, the costs in an array up to its stop byte. -/
inductive IsView (models : CostModels) : PlutusVersion → Cbor × Cbor → Prop where
  | v1 {costs : List Int64} (given : models.find? .v1 = some costs) :
      IsView models .v1
        (.bytes [0], .bytes (0x9f :: Cbor.encodeAll (costs.map .ofInt64) ++ [0xff]))
  | v2 {costs : List Int64} (given : models.find? .v2 = some costs) :
      IsView models .v2 (.unsigned 1, .array (costs.map .ofInt64))
  | v3 {costs : List Int64} (given : models.find? .v3 = some costs) :
      IsView models .v3 (.unsigned 2, .array (costs.map .ofInt64))

theorem isView_iff {version : PlutusVersion} {entry : Cbor × Cbor} :
    IsView models version entry ↔
      ∃ costs, models.find? version = some costs ∧ entry = languageView version costs := by
  constructor
  · intro view
    cases view with
    | v1 given | v2 given | v3 given => exact ⟨_, given, rfl⟩
  · rintro ⟨costs, given, rfl⟩
    cases version with
    | v1 => exact .v1 given
    | v2 => exact .v2 given
    | v3 => exact .v3 given

/-- The views of these versions and no other entries, in the order of their keys. -/
structure AreViews (versions : SortedSet PlutusVersion) (models : CostModels)
    (entries : List (Cbor × Cbor)) : Prop where
  mem_iff : ∀ entry, entry ∈ entries ↔ ∃ version ∈ versions.keys, IsView models version entry
  inOrder : Cbor.InOrder entries

theorem AreViews.unique {entries others : List (Cbor × Cbor)} (h : AreViews versions models entries)
    (h' : AreViews versions models others) : entries = others :=
  h.inOrder.eq_of_mem_iff h'.inOrder fun e => (h.mem_iff e).trans (h'.mem_iff e).symm

theorem areViews_of_languageViews {c : Cbor} (h : languageViews versions models = .ok c) :
    ∃ entries, c = .map entries ∧ AreViews versions models entries := by
  refine ⟨_, views_of_languageViews h, fun entry => ?_, inOrder_views versions models⟩
  rw [mem_views]
  refine exists_congr fun version => and_congr_right fun mem => ?_
  obtain ⟨costs, found⟩ := Option.isSome_iff_exists.1 (priced_of_languageViews h version mem)
  rw [isView_iff, found, Option.getD_some]
  simp [eq_comm]

end ScriptIntegrity

/-! ### Redeemers and datums as they are written -/

namespace WitnessSet

variable (w : WitnessSet)

theorem nodup_fields : ([0, 1, 3, 4, 5, 6, 7] : List UInt8).Nodup := by decide

/-- A field that is left out if there is nothing for it. -/
theorem fieldOfMap?_toCbor {key : UInt8} {empty : Bool} {item : Cbor}
    (short : w.toCbor.length < UInt64.size)
    (field : w.toCbor.field? key = if empty then none else some item) :
    Cbor.fieldOfMap? key w.toCbor.encode = if empty then none else some item.encode := by
  have read : Cbor.fieldOfMap? key w.toCbor.encode = (w.toCbor.field? key).map Cbor.encode :=
    Cbor.fieldOfMap?_encode short key
  rw [read, field]
  cases empty <;> rfl

theorem fieldOfMap?_redeemers (short : w.toCbor.length < UInt64.size) :
    Cbor.fieldOfMap? 5 w.toCbor.encode =
      if w.redeemers.isEmpty then none else some w.redeemers.toCbor.encode :=
  w.fieldOfMap?_toCbor short (Cbor.field?_of_mem nodup_fields (by simp))

theorem fieldOfMap?_datums (short : w.toCbor.length < UInt64.size) :
    Cbor.fieldOfMap? 4 w.toCbor.encode =
      if w.datums.isEmpty then none else some (datumsToCbor w.datums).encode :=
  w.fieldOfMap?_toCbor short (Cbor.field?_of_mem nodup_fields (by simp))

end WitnessSet

namespace ScriptIntegrity

/-- Redeemers and datums out of the bytes of a witness set, and views behind them. Without redeemers an
empty map stands for them, without datums nothing. -/
def bound (witnesses : Bytes) (views : List (Cbor × Cbor)) : Bytes :=
  (Cbor.fieldOfMap? 5 witnesses).getD (Cbor.map []).encode ++
    (Cbor.fieldOfMap? 4 witnesses).getD [] ++ (Cbor.map views).encode

theorem bytes_bound {w : WitnessSet} {integrity : Bytes} (short : w.toCbor.length < UInt64.size)
    (h : bytes w.redeemers w.datums versions models = .ok integrity) :
    ∃ views, AreViews versions models views ∧ integrity = bound w.toCbor.encode views := by
  obtain ⟨c, viewed, h⟩ := bind_ok h
  obtain ⟨views, rfl, areViews⟩ := areViews_of_languageViews viewed
  obtain rfl := pure_ok h
  refine ⟨views, areViews, ?_⟩
  have redeemers : (Cbor.fieldOfMap? 5 w.toCbor.encode).getD (Cbor.map []).encode =
      w.redeemers.toCbor.encode := by
    rw [w.fieldOfMap?_redeemers short]
    split
    · rename_i empty
      rw [Redeemers.toCbor, List.isEmpty_iff.1 empty]
      rfl
    · rfl
  have datums : (Cbor.fieldOfMap? 4 w.toCbor.encode).getD [] =
      if w.datums.isEmpty then [] else (datumsToCbor w.datums).encode := by
    rw [w.fieldOfMap?_datums short]
    split <;> rfl
  rw [bound, redeemers, datums]

end ScriptIntegrity

theorem Draft.scriptDataHash_of_assemble {d : Draft} {inputs : List Utxo} {change : List TxOutput}
    {fee : Amount} {models : CostModels} {tx : Transaction}
    (h : d.assemble inputs change fee models = .ok tx) :
    ScriptIntegrity.hash? tx.witnesses.redeemers tx.witnesses.datums d.versions models =
      .ok tx.body.scriptDataHash := by
  obtain ⟨redeemers, _, h⟩ := bind_ok h
  obtain ⟨hash, hashed, h⟩ := bind_ok h
  obtain rfl := pure_ok h
  exact mapError_ok hashed

namespace Transaction

/-- The body's hashes are those of the parts beside it. -/
structure Hashed (t : Transaction) (versions : SortedSet PlutusVersion) (models : CostModels) :
    Prop where
  scripts : ScriptIntegrity.hash? t.witnesses.redeemers t.witnesses.datums versions models =
    .ok t.body.scriptDataHash
  metadata : t.metadata.mapM Metadata.hash = .ok t.body.metadataHash

theorem Hashed.withKeys {t : Transaction} {versions : SortedSet PlutusVersion} {models : CostModels}
    (hashed : t.Hashed versions models) (keys : List KeyWitness) :
    (t.withKeys keys).Hashed versions models :=
  ⟨hashed.scripts, hashed.metadata⟩

/-- What the bytes of the transaction show of its hashes. There is one of scripts where there is a
redeemer or a datum, and it is that of their integrity bytes: of what the transaction's second item, its
witness set, has of redeemers and of datums, and of the views of the versions. The one of metadata is
that of the fourth item. Headers state lengths in a word. -/
structure Sealed (t : Transaction) (versions : SortedSet PlutusVersion) (models : CostModels)
    (bytes : Bytes) : Prop where
  scripts_isSome :
    t.body.scriptDataHash.isSome = (!t.witnesses.redeemers.isEmpty || !t.witnesses.datums.isEmpty)
  scripts : ∀ hash ∈ t.body.scriptDataHash, ∃ integrity,
    ScriptIntegrity.bytes t.witnesses.redeemers t.witnesses.datums versions models = .ok integrity ∧
      hash = blake2b256 integrity
  second : bytes.length < UInt64.size → ∃ witnesses, Cbor.elementOfArray? 1 bytes = some witnesses ∧
    t.body.scriptDataHash.isSome =
      ((Cbor.fieldOfMap? 5 witnesses).isSome || (Cbor.fieldOfMap? 4 witnesses).isSome) ∧
    ∀ hash ∈ t.body.scriptDataHash, (∃ views, ScriptIntegrity.AreViews versions models views) ∧
      ∀ views, ScriptIntegrity.AreViews versions models views →
        hash = blake2b256 (ScriptIntegrity.bound witnesses views)
  fourth : ∃ body last,
    bytes = (Cbor.array [body, t.witnesses.toCbor, .bool t.isValid, last]).encode ∧
    (bytes.length < UInt64.size → Cbor.elementOfArray? 3 bytes = some last.encode) ∧
    ∀ hash ∈ t.body.metadataHash, hash = blake2b256 last.encode

theorem hash_of_option {metadata : Option Metadata} {hash : Option (Digest 32)} {item : Option Cbor}
    (hashed : metadata.mapM Metadata.hash = .ok hash)
    (written : metadata.mapM Metadata.toCbor = .ok item) :
    ∀ digest ∈ hash, digest = blake2b256 (Cbor.option item).encode := by
  rintro digest ⟨⟩
  cases option_mapM_ok hashed with
  | some one =>
    obtain ⟨c, same, rfl⟩ := Metadata.hash_ok one
    cases option_mapM_ok written with
    | some two =>
      cases same.symm.trans two
      rfl

theorem Hashed.sealed {t : Transaction} {versions : SortedSet PlutusVersion} {models : CostModels}
    {bytes : Bytes} (hashed : t.Hashed versions models) (h : t.encode = .ok bytes) :
    t.Sealed versions models bytes := by
  obtain ⟨there, integrity⟩ := ScriptIntegrity.hash?_ok hashed.scripts
  obtain ⟨body, metadata, _, written, rfl⟩ := encode_ok h
  refine ⟨there, integrity, fun short => ?_, body, .option metadata, rfl, fun short => ?_, ?_⟩
  · have within : t.witnesses.toCbor.length < UInt64.size :=
      (Cbor.length_le_of_mem_array (by simp)).trans_lt short
    refine ⟨t.witnesses.toCbor.encode, Cbor.elementOfArray?_encode short rfl, ?_, ?_⟩
    · rw [there, t.witnesses.fieldOfMap?_redeemers within, t.witnesses.fieldOfMap?_datums within,
        Cbor.isSome_unless, Cbor.isSome_unless]
    · intro hash given
      obtain ⟨whole, recomputed, rfl⟩ := integrity hash given
      obtain ⟨views, areViews, rfl⟩ := ScriptIntegrity.bytes_bound within recomputed
      refine ⟨⟨views, areViews⟩, fun others areOthers => ?_⟩
      rw [areViews.unique areOthers]
  · exact Cbor.elementOfArray?_encode short rfl
  · exact hash_of_option hashed.metadata written

end Transaction

end ConwayTx
