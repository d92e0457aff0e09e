import ConwayTx.Proofs.Cbor.Parts
import ConwayTx.Proofs.Cbor.Skipping
import ConwayTx.Proofs.Transaction.Content

/-!
# The frame of an encoded transaction

How many fields a record writes is known from which of its parts are set (`fieldCount`); the headers
state just that. An encoded transaction is an array of four well-formed items.
-/

namespace ConwayTx

open Outcome

/-! ### Maps -/

namespace Cbor

/-- The bytes are a map, and its header states the number of its entries. -/
def HasEntries (count : Nat) (s : Bytes) : Prop :=
  ∃ entries : List (Bytes × Bytes), entries.length = count ∧
    header? s = some (⟨5, some count⟩, entries.flatMap fun entry => entry.1 ++ entry.2) ∧
    ∀ entry ∈ entries, WellFormed entry.1 ∧ WellFormed entry.2

theorem hasEntries_encode {entries : List (Cbor × Cbor)} {count : Nat}
    (short : (map entries).length < UInt64.size) (counted : entries.length = count) :
    HasEntries count (map entries).encode := by
  have header := header?_encode short []
  rw [List.append_nil, List.append_nil] at header
  refine ⟨entries.map encodePair, by rw [List.length_map, counted], ?_, ?_⟩
  · rw [header, major, number?, content, encodePairs_eq_flatMap, counted]
  · exact List.forall_mem_map.2 (wellFormed_encodePairs entries ((content_le _).trans_lt short))

theorem isSome_unless {α : Type} (empty : Bool) (item : α) :
    (if empty = true then none else some item).isSome = !empty := by
  cases empty <;> rfl

/-- Of fields, those that are present are entries. -/
theorem hasEntries_fields {entries : List (UInt8 × Option Cbor)} {count : Nat}
    (short : (fields entries).length < UInt64.size)
    (counted : (entries.map fun entry => entry.2.isSome).count true = count) :
    HasEntries count (fields entries).encode :=
  hasEntries_encode short ((length_present entries).trans counted)

end Cbor

/-! ### Counts -/

namespace TxOutput

def fieldCount (o : TxOutput) : Nat := 2 + o.datum.isSome.toNat + o.script.isSome.toNat

theorem hasEntries_toCbor {o : TxOutput} {item : Cbor} (h : o.toCbor = .ok item)
    (short : item.length < UInt64.size) : Cbor.HasEntries o.fieldCount item.encode := by
  obtain ⟨value, _, rfl⟩ := toCbor_ok h
  refine Cbor.hasEntries_fields short ?_
  cases o with
  | mk address value datum script => cases datum <;> cases script <;> rfl

end TxOutput

namespace WitnessSet

def fieldCount (w : WitnessSet) : Nat :=
  [!w.keys.isEmpty, !w.nativeScripts.isEmpty, !(w.scriptsOf .v1).isEmpty, !w.datums.isEmpty,
    !w.redeemers.isEmpty, !(w.scriptsOf .v2).isEmpty, !(w.scriptsOf .v3).isEmpty].count true

theorem hasEntries_toCbor {w : WitnessSet} (short : w.toCbor.length < UInt64.size) :
    Cbor.HasEntries w.fieldCount w.toCbor.encode := by
  refine Cbor.hasEntries_fields short ?_
  simp only [List.map_cons, List.map_nil, unlessEmpty, Cbor.isSome_unless, List.isEmpty_map,
    fieldCount]

end WitnessSet

namespace TxBody

def fieldCount (b : TxBody) : Nat :=
  3 + [b.ttl.isSome, !b.certificates.isEmpty, !b.withdrawals.isEmpty, b.metadataHash.isSome,
    b.validityStart.isSome, b.mint.isSome, b.scriptDataHash.isSome, !b.collateral.isEmpty,
    !b.requiredSigners.isEmpty, b.network.isSome, b.collateralReturn.isSome,
    b.totalCollateral.isSome, !b.referenceInputs.isEmpty].count true

theorem hasEntries_toCbor {b : TxBody} {item : Cbor} (h : b.toCbor = .ok item)
    (short : item.length < UInt64.size) : Cbor.HasEntries b.fieldCount item.encode := by
  obtain ⟨outputs, mint, returned, _, mintOk, returnOk, rfl⟩ := toCbor_ok h
  have minted := isSome_of_mapM_ok mintOk
  have given := isSome_of_mapM_ok returnOk
  refine Cbor.hasEntries_fields short ?_
  simp only [fields, List.map_cons, List.map_nil, Option.isSome_some, Option.isSome_map,
    unlessEmpty, Cbor.isSome_unless, minted, given, fieldCount]
  rw [List.count_cons_self, List.count_cons_self, List.count_cons_self]
  omega

theorem output_toCbor {b : TxBody} {item : Cbor} (h : b.toCbor = .ok item) {o : TxOutput}
    (mem : o ∈ b.outputs ++ b.collateralReturn.toList) :
    ∃ output, o.toCbor = .ok output ∧ output.length ≤ item.length := by
  obtain ⟨outputs, mint, returned, outputsOk, _, returnOk, rfl⟩ := toCbor_ok h
  rcases List.mem_append.1 mem with paid | given
  · obtain ⟨output, listed, ok⟩ := of_mem_mapM_ok outputsOk paid
    have field : (1, some (.array outputs)) ∈ b.fields outputs mint returned := by simp [fields]
    exact ⟨output, ok,
      (Cbor.length_le_of_mem_array listed).trans (Cbor.length_le_of_mem_fields 1 field)⟩
  · rw [Option.mem_toList] at given
    rw [given] at returnOk
    obtain ⟨output, ok, written⟩ := bind_ok returnOk
    obtain rfl := pure_ok written
    have field : (16, some output) ∈ b.fields outputs mint (some output) := by simp [fields]
    exact ⟨output, ok, Cbor.length_le_of_mem_fields 16 field⟩

end TxBody

/-! ### The whole -/

namespace Transaction

theorem encode_ok {t : Transaction} {bytes : Bytes} (h : t.encode = .ok bytes) :
    ∃ body metadata, t.body.toCbor = .ok body ∧ t.metadata.mapM Metadata.toCbor = .ok metadata ∧
      bytes = (Cbor.array [body, t.witnesses.toCbor, .bool t.isValid, .option metadata]).encode := by
  obtain ⟨item, items, h⟩ := bind_ok h
  obtain ⟨body, bodyOk, items⟩ := bind_ok items
  obtain ⟨metadata, metadataOk, items⟩ := bind_ok items
  refine ⟨body, metadata, bodyOk, metadataOk, ?_⟩
  rw [← pure_ok h, ← pure_ok items]

/-- The bytes are an array of four items, to the last byte; the first is the encoded body. The maps of
body, witnesses and outputs state how many of their fields are set. -/
structure Framed (t : Transaction) (bytes body witnesses validity metadata : Bytes) : Prop where
  header : Cbor.header? bytes = some (⟨4, some 4⟩, body ++ witnesses ++ validity ++ metadata)
  parts : ∀ part ∈ [body, witnesses, validity, metadata], Cbor.WellFormed part
  body_encodes : t.body.encode = .ok body
  body_fields : Cbor.HasEntries t.body.fieldCount body
  witness_fields : Cbor.HasEntries t.witnesses.fieldCount witnesses
  output_fields : ∀ o ∈ t.body.outputs ++ t.body.collateralReturn.toList,
    ∃ output, o.toCbor = .ok output ∧ Cbor.HasEntries o.fieldCount output.encode

theorem framed_encode {t : Transaction} {bytes : Bytes} (h : t.encode = .ok bytes)
    (short : bytes.length < UInt64.size) :
    ∃ body witnesses validity metadata, t.Framed bytes body witnesses validity metadata := by
  obtain ⟨body, metadata, bodyOk, _, rfl⟩ := encode_ok h
  have within {part : Cbor}
      (mem : part ∈ [body, t.witnesses.toCbor, .bool t.isValid, .option metadata]) :
      part.length < UInt64.size := (Cbor.length_le_of_mem_array mem).trans_lt short
  have header := Cbor.header?_encode short []
  simp only [List.append_nil] at header
  refine ⟨body.encode, t.witnesses.toCbor.encode, (Cbor.bool t.isValid).encode,
    (Cbor.option metadata).encode, ?_, ?_, ?_, ?_, ?_, ?_⟩
  · rw [header]
    simp [Cbor.major, Cbor.number?, Cbor.content, Cbor.encodeAll]
  · intro part mem
    have one : part ∈ [body, t.witnesses.toCbor, .bool t.isValid, .option metadata].map Cbor.encode :=
      mem
    obtain ⟨item, listed, rfl⟩ := List.mem_map.1 one
    exact Cbor.wellFormed_encode item (within listed)
  · rw [TxBody.encode, bodyOk]
    rfl
  · exact TxBody.hasEntries_toCbor bodyOk (within List.mem_cons_self)
  · exact WitnessSet.hasEntries_toCbor (within (List.mem_cons_of_mem _ List.mem_cons_self))
  · intro o mem
    obtain ⟨output, ok, inside⟩ := TxBody.output_toCbor bodyOk mem
    exact ⟨output, ok, TxOutput.hasEntries_toCbor ok (inside.trans_lt (within List.mem_cons_self))⟩

end Transaction

end ConwayTx
