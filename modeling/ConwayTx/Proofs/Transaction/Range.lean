import ConwayTx.Proofs.Metadata.Reading
import ConwayTx.Proofs.Redeemer.Placement

/-!
# Transactions that can be encoded

Encoding a transaction fails just where a quantity of an output, a quantity of the mint or an integer
of the metadata is outside of its field's range (`OutOfRange`), and with no other error. The encoding
is that of one item only, and the item has all of these numbers as they are (`encode_exact`).
-/

namespace ConwayTx

open Outcome

/-- The funds of an encoded output. -/
def Cbor.paid? (output : Cbor) : Option Funds := (output.field? 1).bind Cbor.funds?

namespace TxOutput

theorem ranged_toCbor (o : TxOutput) : Fails EncodeError.IsRange o.toCbor :=
  o.value.ranged_toCbor.bind fun _ _ => .ok _

theorem refused_toCbor_iff {o : TxOutput} :
    Refused o.toCbor ↔ ∃ p n, 2 ^ 64 - 1 < o.value.quantity p n :=
  refused_bind_pure_iff.trans Value.refused_toCbor_iff

theorem paid?_toCbor {o : TxOutput} {c : Cbor} (written : o.toCbor = .ok c) :
    c.paid? = some o.value.positiveFunds := by
  obtain ⟨value, worth, rfl⟩ := toCbor_ok written
  have keys : ((o.fields value).map Prod.fst).Nodup := by
    show ([0, 1, 2, 3] : List UInt8).Nodup
    decide
  rw [Cbor.paid?, Cbor.field?_fields keys (.tail _ (.head _)), Option.bind_some,
    Value.funds?_toCbor worth]

end TxOutput

namespace TxBody

/-- An output or the collateral return holds more of an asset than a word can say, or the mint has a
quantity that no signed word can say. -/
def OutOfRange (b : TxBody) : Prop :=
  (∃ o ∈ b.outputs, ∃ p n, 2 ^ 64 - 1 < o.value.quantity p n) ∨
  (∃ m ∈ b.mint, ∃ p n, m.quantity p n < -2 ^ 63 ∨ 2 ^ 63 - 1 < m.quantity p n) ∨
  ∃ o ∈ b.collateralReturn, ∃ p n, 2 ^ 64 - 1 < o.value.quantity p n

theorem ranged_toCbor (b : TxBody) : Fails EncodeError.IsRange b.toCbor := by
  refine .bind (.mapM fun o _ => o.ranged_toCbor) fun _ _ => ?_
  refine .bind (.option_mapM fun m _ => ?_) fun _ _ => ?_
  · exact MultiAsset.ranged_keptToCbor MultiAsset.ranged_mintedToCbor _
  · exact .bind (.option_mapM fun o _ => o.ranged_toCbor) fun _ _ => .ok _

theorem refused_toCbor_iff {b : TxBody} : Refused b.toCbor ↔ b.OutOfRange := by
  have steps : Refused b.toCbor ↔ Refused (b.outputs.mapM TxOutput.toCbor) ∨
      Refused (b.mint.mapM MultiAsset.mintToCbor) ∨
      Refused (b.collateralReturn.mapM TxOutput.toCbor) :=
    refused_bind_iff fun _ _ => refused_bind_iff fun _ _ => refused_bind_pure_iff
  rw [steps, refused_mapM_iff, refused_option_mapM_iff, refused_option_mapM_iff, OutOfRange]
  simp only [TxOutput.refused_toCbor_iff, MultiAsset.refused_mintToCbor_iff]

/-- The funds of outputs and collateral return, and the quantities of the mint, stand in the item. -/
structure ReadBack (b : TxBody) (c : Cbor) : Prop where
  outputs : ∀ i o, b.outputs[i]? = some o →
    ((c.field? 1).bind (·.item? i)).bind Cbor.paid? = some o.value.positiveFunds
  mint : ∀ m ∈ b.mint, ∃ item, c.field? 9 = some item ∧ ∀ p n, item.quantity p n = m.quantity p n
  collateralReturn : ∀ o ∈ b.collateralReturn,
    (c.field? 16).bind Cbor.paid? = some o.value.positiveFunds

theorem readBack {b : TxBody} {c : Cbor} (written : b.toCbor = .ok c) : b.ReadBack c := by
  obtain ⟨outputs, mint, returned, outputsOk, mintOk, returnOk, rfl⟩ := toCbor_ok written
  have field (key : UInt8) (item : Cbor) :=
    @Cbor.field?_fields _ key item (b.nodup_fields outputs mint returned)
  refine ⟨fun i o placed => ?_, fun m given => ?_, fun o given => ?_⟩
  · obtain ⟨item, there, written⟩ := getElem?_of_mapM_ok outputsOk placed
    rw [field 1 (.array outputs) (by simp [fields]), Option.bind_some, Cbor.item?, there]
    exact TxOutput.paid?_toCbor written
  · rw [Option.mem_def.1 given] at mintOk
    cases option_mapM_ok mintOk with
    | @some _ item one =>
      exact ⟨item, field 9 item (by simp [fields]), MultiAsset.quantity_mintToCbor one⟩
  · rw [Option.mem_def.1 given] at returnOk
    cases option_mapM_ok returnOk with
    | @some _ item one =>
      rw [field 16 item (by simp [fields])]
      exact TxOutput.paid?_toCbor one

end TxBody

namespace Transaction

/-- The body has a quantity outside of its range, or the metadata has an integer that is of neither
integer type, at whatever depth. -/
def OutOfRange (t : Transaction) : Prop :=
  t.body.OutOfRange ∨ ∃ m ∈ t.metadata, ∃ e ∈ m.entries,
    ∃ n, e.2.Contains n ∧ (n < -2 ^ 64 ∨ 2 ^ 64 - 1 < n)

theorem ranged_encode (t : Transaction) : Fails EncodeError.IsRange t.encode := by
  refine .bind ?_ fun _ _ => .ok _
  refine t.body.ranged_toCbor.bind fun _ _ => ?_
  exact .bind (.option_mapM fun m _ => m.ranged_toCbor) fun _ _ => .ok _

theorem refused_encode_iff {t : Transaction} : Refused t.encode ↔ t.OutOfRange := by
  have steps : Refused t.toCbor ↔ Refused t.body.toCbor ∨ Refused (t.metadata.mapM Metadata.toCbor) :=
    refused_bind_iff fun _ _ => refused_bind_pure_iff
  rw [encode, refused_bind_pure_iff, steps, refused_option_mapM_iff, TxBody.refused_toCbor_iff,
    OutOfRange]
  simp only [Metadata.refused_toCbor_iff]

/-- The numbers of the body and the metadata stand in the item. -/
structure ReadBack (t : Transaction) (c : Cbor) : Prop where
  body : ∃ item, c.item? 0 = some item ∧ t.body.ReadBack item
  metadata : ∀ m ∈ t.metadata, (c.item? 3).bind Cbor.metadata? = some m.entries

theorem readBack {t : Transaction} {c : Cbor} (written : t.toCbor = .ok c) : t.ReadBack c := by
  obtain ⟨body, bodyOk, written⟩ := bind_ok written
  obtain ⟨metadata, metadataOk, written⟩ := bind_ok written
  obtain rfl := pure_ok written
  refine ⟨⟨body, rfl, TxBody.readBack bodyOk⟩, fun m given => ?_⟩
  rw [Option.mem_def.1 given] at metadataOk
  cases option_mapM_ok metadataOk with
  | some one => exact Metadata.metadata?_toCbor one

theorem encode_exact (t : Transaction) :
    ((∃ e, t.encode = .error e) ↔ t.OutOfRange) ∧
    (∀ e, t.encode = .error e → ∃ fault, e = .outOfRange fault) ∧
    ∀ bytes, t.encode = .ok bytes → ∃ c : Cbor, bytes = c.encode ∧
      (bytes.length < UInt64.size → ∀ other : Cbor, other.encode = bytes → other = c) ∧
      t.ReadBack c := by
  refine ⟨refused_encode_iff, t.ranged_encode, fun bytes ended => ?_⟩
  obtain ⟨c, written, ended⟩ := bind_ok ended
  obtain rfl := pure_ok ended
  refine ⟨c, rfl, fun short other same => ?_, readBack written⟩
  exact (Cbor.encode_inj short same.symm).symm

/-- The ends of the three ranges are written, also the least integer as a key in nested metadata; one
less is not. -/
theorem encode_exact_at_limits :
    let address : Address := .enterprise .testnet (.key .zero)
    let name : AssetName := ⟨[], by decide⟩
    let most : Value := ⟨5, some (.ofList [(.zero, .ofList [(name, 2 ^ 64 - 1)])])⟩
    let burn : MultiAsset := .ofList [(.zero, .ofList [(name, -2 ^ 63)])]
    let noted (n : ℤ) : Metadata := .ofList [(0, .list [.map [(.int n, .bytes [])]])]
    let t (n : ℤ) : Transaction := {
      body := { outputs := [{ address, value := most }], mint := some burn }
      witnesses := {}
      metadata := some (noted n) }
    (∃ c : Cbor, (t (-2 ^ 64)).encode = .ok c.encode ∧
        (∀ other : Cbor, other.encode = c.encode → other = c) ∧ (t (-2 ^ 64)).ReadBack c) ∧
      (t (-2 ^ 64 - 1)).OutOfRange ∧
      ∃ fault, (t (-2 ^ 64 - 1)).encode = .error (.outOfRange fault) := by
  intro address name most burn noted t
  obtain ⟨bytes, ended⟩ := ok_of_isSome
    (show (t (-2 ^ 64)).encode.toOption.isSome = true by decide +kernel)
  obtain ⟨c, rfl, unique, read⟩ := (encode_exact (t (-2 ^ 64))).2.2 bytes ended
  have length : (t (-2 ^ 64)).encode.toOption.all (·.length < UInt64.size) = true := by
    decide +kernel
  rw [ended] at length
  obtain ⟨refused, ranged, _⟩ := encode_exact (t (-2 ^ 64 - 1))
  have outside : (t (-2 ^ 64 - 1)).OutOfRange := by
    refine .inr ⟨_, rfl, _, .head _, -2 ^ 64 - 1, .item (.head _) (.key (.head _) .here), .inl ?_⟩
    decide
  obtain ⟨e, failed⟩ := refused.2 outside
  obtain ⟨fault, rfl⟩ := ranged e failed
  exact ⟨⟨c, ended, unique (of_decide_eq_true length), read⟩, outside, fault, failed⟩

end Transaction

end ConwayTx
