import ConwayTx.Output.Minimum
import ConwayTx.Proofs.Cbor.Length
import ConwayTx.Proofs.Output

/-!
# Minimums of outputs

Of an output's bytes only the header of its coin depends on the coin (`exists_weighs`). A larger coin
takes no fewer bytes, so the minimum grows with the coin (`minCoin_mono`), and raising a coin to its
minimum until it holds ends at the least coin that does (`raiseToMinimum_least`).
-/

namespace ConwayTx

open Outcome

/-! ### Sizes -/

/-- The coin of a value takes its header, with assets and without. -/
theorem Value.length_withCoin {v : Value} {item : Cbor} (h : v.toCbor = .ok item) :
    ∃ rest, ∀ coin, ∃ item', ({ v with coin } : Value).toCbor = .ok item' ∧
      item'.length = rest + Cbor.headLength coin.toNat := by
  rcases toCbor_ok h with ⟨has, assets, written, _⟩ | ⟨none, _⟩
  · refine ⟨Cbor.headLength 2 + assets.length, fun coin => ⟨.array [.unsigned coin, assets], ?_, ?_⟩⟩
    · show (if v.hasAssets then v.bundle.toCbor >>= _ else _) = _
      rw [if_pos has, written]
      rfl
    · rw [Cbor.length_array, List.map_cons, List.map_cons, List.map_nil, Cbor.length_unsigned,
        List.sum_cons, List.sum_cons, List.sum_nil]
      show Cbor.headLength 2 + _ = _
      omega
  · refine ⟨0, fun coin => ⟨.unsigned coin, ?_, ?_⟩⟩
    · show (if v.hasAssets then _ else _) = _
      rw [if_neg (by simp [none])]
    · rw [Cbor.length_unsigned, Nat.zero_add]

namespace TxOutput

/-- The output is written with any coin, in so many bytes besides the coin. -/
def Weighs (o : TxOutput) (rest : Nat) : Prop :=
  ∀ coin, ∃ item, (o.withCoin coin).toCbor = .ok item ∧
    item.length = rest + Cbor.headLength coin.toNat

theorem exists_weighs {o : TxOutput} {value : Cbor} (h : o.value.toCbor = .ok value) :
    ∃ rest, o.Weighs rest := by
  obtain ⟨rest, lengths⟩ := Value.length_withCoin h
  refine ⟨(Cbor.fields (o.fields value)).length - value.length + rest, fun coin => ?_⟩
  obtain ⟨value', written, length⟩ := lengths coin
  refine ⟨.fields (o.fields value'), ?_, ?_⟩
  · show (({ o.value with coin } : Value).toCbor >>= _) = _
    rw [written]
    rfl
  · have listed : (1, some value) ∈ o.fields value := by simp [fields]
    have fits := Cbor.length_le_of_mem_fields 1 listed
    have replaced := Cbor.length_fields_replace [(0, some o.address.toCbor)]
      [(2, o.datum.map Datum.toCbor), (3, o.script.map Script.toCbor)] 1 value value'
    simp only [fields, List.singleton_append] at fits replaced ⊢
    omega

/-- What is written is written with any coin. -/
theorem weighs_of_toCbor {o : TxOutput} {item : Cbor} (h : o.toCbor = .ok item) :
    ∃ rest, o.Weighs rest := by
  obtain ⟨value, written, _⟩ := toCbor_ok h
  exact exists_weighs written

theorem length_toCbor_mono {o : TxOutput} {low high : Amount} {c d : Cbor} (le : low ≤ high)
    (left : (o.withCoin low).toCbor = .ok c) (right : (o.withCoin high).toCbor = .ok d) :
    c.length ≤ d.length := by
  obtain ⟨rest, weighs⟩ := weighs_of_toCbor left
  obtain ⟨c', written, small⟩ := weighs low
  obtain ⟨d', written', large⟩ := weighs high
  cases left.symm.trans written
  cases right.symm.trans written'
  have := Cbor.headLength_mono (UInt64.le_iff_toNat_le.1 le)
  omega

/-! ### Minimums -/

theorem minCoin_ok {o : TxOutput} {coinsPerByte required : Amount}
    (h : o.minCoin coinsPerByte = .ok required) :
    ∃ item, o.toCbor = .ok item ∧
      required = Amount.clamp (coinsPerByte.toNat * (item.length + overhead)) := by
  obtain ⟨size, sized, h⟩ := bind_ok h
  obtain ⟨item, written, sized⟩ := bind_ok sized
  obtain rfl := pure_ok sized
  exact ⟨item, written, (pure_ok h).symm⟩

theorem minCoin_mono {o : TxOutput} {coinsPerByte low high required required' : Amount}
    (le : low ≤ high) (left : (o.withCoin low).minCoin coinsPerByte = .ok required)
    (right : (o.withCoin high).minCoin coinsPerByte = .ok required') : required ≤ required' := by
  obtain ⟨item, written, rfl⟩ := minCoin_ok left
  obtain ⟨item', written', rfl⟩ := minCoin_ok right
  have sizes := length_toCbor_mono le written written'
  have products := Nat.mul_le_mul_left coinsPerByte.toNat (Nat.add_le_add_right sizes overhead)
  rw [UInt64.le_iff_toNat_le, Amount.toNat_clamp, Amount.toNat_clamp]
  omega

/-- The coin of the output is not below the minimum of the output itself. -/
def Admissible (coinsPerByte : Amount) (o : TxOutput) : Prop :=
  ∃ required, o.minCoin coinsPerByte = .ok required ∧ required ≤ o.coin

/-- A coin below its minimum is below every admissible coin by as much. -/
theorem le_of_admissible {o : TxOutput} {coinsPerByte low high required : Amount} (le : low ≤ high)
    (minimum : (o.withCoin low).minCoin coinsPerByte = .ok required)
    (admissible : (o.withCoin high).Admissible coinsPerByte) : required ≤ high := by
  obtain ⟨required', minimum', enough⟩ := admissible
  exact UInt64.le_trans (minCoin_mono le minimum minimum') enough

/-- The coin that comes out is the least admissible one that is not below the coin that went in. -/
structure LeastRaise (coinsPerByte : Amount) (o raised : TxOutput) : Prop where
  same : raised = o.withCoin raised.coin
  covers : o.coin ≤ raised.coin
  admissible : raised.Admissible coinsPerByte
  least : ∀ coin, o.coin ≤ coin → (o.withCoin coin).Admissible coinsPerByte → raised.coin ≤ coin

theorem leastRaise_refl {o : TxOutput} {coinsPerByte : Amount}
    (admissible : o.Admissible coinsPerByte) : o.LeastRaise coinsPerByte o :=
  ⟨rfl, UInt64.le_refl _, admissible, fun _ covers _ => covers⟩

theorem raiseLoop_least {coinsPerByte : Amount} {allowed left : Nat} {o raised : TxOutput}
    (h : raiseLoop coinsPerByte allowed left o = .ok raised) :
    o.LeastRaise coinsPerByte raised := by
  induction left generalizing o with
  | zero =>
    rw [raiseLoop] at h
    obtain ⟨required, minimum, h⟩ := bind_ok h
    split at h
    · rename_i enough
      obtain rfl := pure_ok h
      exact leastRaise_refl ⟨required, minimum, enough⟩
    · cases h
  | succ left ih =>
    rw [raiseLoop] at h
    obtain ⟨required, minimum, h⟩ := bind_ok h
    split at h
    · rename_i enough
      obtain rfl := pure_ok h
      exact leastRaise_refl ⟨required, minimum, enough⟩
    · rename_i short
      obtain ⟨same, covers, admissible, least⟩ := ih h
      have grows : o.coin ≤ required := UInt64.le_of_lt (UInt64.not_le.1 short)
      refine ⟨same, UInt64.le_trans grows covers, admissible, fun coin above enough => ?_⟩
      exact least coin (le_of_admissible above minimum enough) enough

theorem raiseToMinimum_least {coinsPerByte : Amount} {o raised : TxOutput}
    (h : o.raiseToMinimum coinsPerByte = .ok raised) : o.LeastRaise coinsPerByte raised :=
  raiseLoop_least h

end TxOutput

end ConwayTx
