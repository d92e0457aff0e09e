import ConwayTx.Output
import ConwayTx.Proofs.Address
import ConwayTx.Proofs.PlutusData
import ConwayTx.Proofs.Script
import ConwayTx.Proofs.Value.Wire

/-!
# Outputs read back

Written outputs are equal where address, coin, positive quantities, datum and script are
(`toCbor_eq_iff`).
-/

namespace ConwayTx.TxOutput

open Outcome

/-- The same content. Quantities that are not positive say nothing. -/
@[mk_iff] structure Same (a b : TxOutput) : Prop where
  address : a.address = b.address
  coin : a.value.coin = b.value.coin
  assets : ∀ p n, max 0 (a.value.quantity p n) = max 0 (b.value.quantity p n)
  datum : a.datum = b.datum
  script : a.script = b.script

def fields (o : TxOutput) (value : Cbor) : List (UInt8 × Option Cbor) :=
  [(0, some o.address.toCbor), (1, some value), (2, o.datum.map Datum.toCbor),
    (3, o.script.map Script.toCbor)]

theorem toCbor_ok {o : TxOutput} {c : Cbor} (h : o.toCbor = .ok c) :
    ∃ value, o.value.toCbor = .ok value ∧ c = .fields (o.fields value) := by
  obtain ⟨value, written, h⟩ := bind_ok h
  exact ⟨value, written, (pure_ok h).symm⟩

theorem toCbor_eq_iff {a b : TxOutput} {c d : Cbor} (short : c.length < UInt64.size)
    (left : a.toCbor = .ok c) (right : b.toCbor = .ok d) : c = d ↔ a.Same b := by
  obtain ⟨value, written, rfl⟩ := toCbor_ok left
  obtain ⟨value', written', rfl⟩ := toCbor_ok right
  have addresses : a.address.toCbor = b.address.toCbor ↔ a.address = b.address :=
    ⟨Address.toCbor_inj, congrArg _⟩
  have datums : a.datum.map Datum.toCbor = b.datum.map Datum.toCbor ↔ a.datum = b.datum := by
    refine Cbor.field_eq_iff fun datum given datum' _ same => Datum.toCbor_inj ?_ same
    have listed : (2, some datum.toCbor) ∈ a.fields value := by
      simp [fields, Option.mem_def.1 given]
    exact (Cbor.length_le_of_mem_fields 2 listed).trans_lt short
  have scripts : a.script.map Script.toCbor = b.script.map Script.toCbor ↔ a.script = b.script := by
    refine Cbor.field_eq_iff fun script given script' _ same => Script.toCbor_inj ?_ same
    have listed : (3, some script.toCbor) ∈ a.fields value := by
      simp [fields, Option.mem_def.1 given]
    exact (Cbor.length_le_of_mem_fields 3 listed).trans_lt short
  rw [Cbor.fields_eq_iff (a.fields value) (b.fields value') rfl (by simp [fields]), same_iff]
  simp only [fields, and_assoc, List.cons.injEq, Prod.mk.injEq, Option.some.injEq, true_and,
    and_true, addresses, Value.toCbor_eq_iff written written', datums, scripts]

end ConwayTx.TxOutput
