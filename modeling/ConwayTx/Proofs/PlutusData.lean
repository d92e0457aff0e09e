import ConwayTx.PlutusData
import ConwayTx.Proofs.Cbor.Parts

/-!
# Plutus data on the wire

Every datum has an item of its own (`toCbor_inj`): long strings join from their pieces, integers
are read in all four forms, and constructors, integers and strings share no tag. With items read
back from bytes, so are data (`encode_append_unique`).
-/

namespace ConwayTx

namespace PlutusData

/-! ### Strings and integers -/

def readBytes : Cbor → Bytes
  | .bytes content => content
  | .pieces content => content.flatten
  | _ => []

def readInteger : Cbor → Int
  | .unsigned n => .ofNat n.toNat
  | .negative n => .negSucc n.toNat
  | .tagged tag item =>
    let n := Bytes.ofBigEndian (readBytes item)
    if tag = 2 then .ofNat n else .negSucc n
  | _ => 0

theorem readBytes_bytesToCbor (content : Bytes) : readBytes (bytesToCbor content) = content := by
  unfold bytesToCbor
  split
  · rfl
  · exact Bytes.flatten_chunks _ _

theorem bytesToCbor_inj {a b : Bytes} (same : bytesToCbor a = bytesToCbor b) : a = b := by
  rw [← readBytes_bytesToCbor a, same, readBytes_bytesToCbor]

theorem readInteger_integerToCbor (n : Int) : readInteger (integerToCbor n) = n := by
  have shortest (m : Nat) : Bytes.ofBigEndian (readBytes (bytesToCbor (Bytes.shortest m))) = m := by
    rw [readBytes_bytesToCbor, Bytes.ofBigEndian_shortest]
  unfold integerToCbor Cbor.ofInt?
  cases n with
  | ofNat m =>
    cases word : Amount.ofNat? m with
    | some w =>
      simp only [word, Option.map_some]
      exact congrArg Int.ofNat (Amount.ofNat?_eq_some_iff.1 word)
    | none =>
      simp only [word, Option.map_none]
      exact congrArg Int.ofNat (shortest m)
  | negSucc m =>
    cases word : Amount.ofNat? m with
    | some w =>
      simp only [word, Option.map_some]
      exact congrArg Int.negSucc (Amount.ofNat?_eq_some_iff.1 word)
    | none =>
      simp only [word, Option.map_none]
      exact congrArg Int.negSucc (shortest m)

theorem integerToCbor_inj {m n : Int} (same : integerToCbor m = integerToCbor n) : m = n := by
  rw [← readInteger_integerToCbor m, same, readInteger_integerToCbor]

/-! ### Lists and constructors -/

theorem listToCbor_inj {xs ys : List Cbor} (same : listToCbor xs = listToCbor ys) : xs = ys := by
  cases xs with
  | nil =>
    cases ys with
    | nil => rfl
    | cons y ys => cases same
  | cons x xs =>
    cases ys with
    | nil => cases same
    | cons y ys => exact Cbor.openArray.inj same

/-- The constructor an item is for, and the item of its fields. -/
def readConstr : Cbor → UInt64 × Cbor
  | .tagged tag item =>
    if tag ≤ 102 then
      match item with
      | .array [.unsigned number, fields] => (number, fields)
      | _ => (0, item)
    else if tag ≤ 127 then (tag - 121, item)
    else (tag + 7 - 1280, item)
  | item => (0, item)

theorem readConstr_constrToCbor (number : UInt64) (fields : Cbor) :
    readConstr (constrToCbor number fields) = (number, fields) := by
  unfold constrToCbor
  simp only [UInt64.le_iff_toNat_le, UInt64.reduceToNat]
  split_ifs with compact extended
  · have tag : (121 + number).toNat = 121 + number.toNat := by
      simp only [UInt64.toNat_add, UInt64.reduceToNat]
      omega
    have written : ¬ 121 + number ≤ 102 := by
      simp only [UInt64.le_iff_toNat_le, tag, UInt64.reduceToNat]
      omega
    have here : 121 + number ≤ 127 := by
      simp only [UInt64.le_iff_toNat_le, tag, UInt64.reduceToNat]
      omega
    show ite _ _ (ite _ _ _) = _
    rw [if_neg written, if_pos here, add_sub_cancel_left]
  · have tag : (1280 + number - 7).toNat = 1273 + number.toNat := by
      rw [UInt64.toNat_sub, UInt64.toNat_add]
      simp only [UInt64.reduceToNat]
      omega
    have written : ¬ 1280 + number - 7 ≤ 102 := by
      simp only [UInt64.le_iff_toNat_le, tag, UInt64.reduceToNat]
      omega
    have earlier : ¬ 1280 + number - 7 ≤ 127 := by
      simp only [UInt64.le_iff_toNat_le, tag, UInt64.reduceToNat]
      omega
    show ite _ _ (ite _ _ _) = _
    rw [if_neg written, if_neg earlier, sub_add_cancel, add_sub_cancel_left]
  · rfl

theorem constrToCbor_inj {m n : UInt64} {x y : Cbor} (same : constrToCbor m x = constrToCbor n y) :
    m = n ∧ x = y := by
  have read := congrArg readConstr same
  rw [readConstr_constrToCbor, readConstr_constrToCbor] at read
  exact Prod.mk.inj read

/-! ### Data -/

def rank : PlutusData → Nat
  | constr _ _ => 0
  | map _ => 1
  | list _ => 2
  | integer _ => 3
  | bytes _ => 4

/-- The rank of the data that an item comes from. -/
def rankOf : Cbor → Nat
  | .tagged tag _ => if tag ≤ 3 then 3 else 0
  | .map _ => 1
  | .array _ | .openArray _ => 2
  | .unsigned _ | .negative _ => 3
  | _ => 4

theorem rankOf_integerToCbor (n : Int) : rankOf (integerToCbor n) = 3 := by
  unfold integerToCbor Cbor.ofInt?
  cases n with
  | ofNat m => cases word : Amount.ofNat? m <;> simp only [word] <;> rfl
  | negSucc m => cases word : Amount.ofNat? m <;> simp only [word] <;> rfl

theorem rankOf_constrToCbor (number : UInt64) (fields : Cbor) :
    rankOf (constrToCbor number fields) = 0 := by
  unfold constrToCbor
  simp only [UInt64.le_iff_toNat_le, UInt64.reduceToNat]
  split_ifs with compact extended
  · refine if_neg ?_
    rw [UInt64.le_iff_toNat_le, UInt64.toNat_add]
    simp only [UInt64.reduceToNat]
    omega
  · refine if_neg ?_
    rw [UInt64.le_iff_toNat_le, UInt64.toNat_sub, UInt64.toNat_add]
    simp only [UInt64.reduceToNat]
    omega
  · rfl

theorem rankOf_toCbor (a : PlutusData) : rankOf a.toCbor = a.rank := by
  cases a with
  | constr number xs => exact rankOf_constrToCbor number _
  | map xs => rfl
  | list xs =>
    rw [toCbor]
    unfold listToCbor
    split <;> rfl
  | integer n => exact rankOf_integerToCbor n
  | bytes content =>
    rw [toCbor]
    unfold bytesToCbor
    split <;> rfl

mutual

theorem toCbor_inj {a b : PlutusData} (same : a.toCbor = b.toCbor) : a = b := by
  -- Items of unlike constructors have unlike ranks: these cases are closed without looking inside.
  have ranks := congrArg rankOf same
  rw [rankOf_toCbor, rankOf_toCbor] at ranks
  cases a with
  | constr t xs =>
    cases b with
    | constr u ys =>
      obtain ⟨tags, fields⟩ := constrToCbor_inj same
      exact congrArg₂ _ tags (allToCbor_inj (listToCbor_inj fields))
    | _ => cases ranks
  | map xs =>
    cases b with
    | map ys => exact congrArg _ (pairsToCbor_inj (Cbor.map.inj same))
    | _ => cases ranks
  | list xs =>
    cases b with
    | list ys => exact congrArg _ (allToCbor_inj (listToCbor_inj same))
    | _ => cases ranks
  | integer m =>
    cases b with
    | integer n => exact congrArg _ (integerToCbor_inj same)
    | _ => cases ranks
  | bytes x =>
    cases b with
    | bytes y => exact congrArg _ (bytesToCbor_inj same)
    | _ => cases ranks
termination_by structural a

theorem allToCbor_inj {xs ys : List PlutusData} (same : allToCbor xs = allToCbor ys) : xs = ys := by
  cases xs with
  | nil =>
    cases ys with
    | nil => rfl
    | cons y ys => cases same
  | cons x xs =>
    cases ys with
    | nil => cases same
    | cons y ys =>
      obtain ⟨first, others⟩ := List.cons.inj same
      exact congrArg₂ _ (toCbor_inj first) (allToCbor_inj others)
termination_by structural xs

theorem pairsToCbor_inj {xs ys : List (PlutusData × PlutusData)}
    (same : pairsToCbor xs = pairsToCbor ys) : xs = ys := by
  rcases xs with _ | ⟨⟨k, v⟩, xs⟩
  · rcases ys with _ | ⟨⟨l, w⟩, ys⟩
    · rfl
    · cases same
  · rcases ys with _ | ⟨⟨l, w⟩, ys⟩
    · cases same
    · obtain ⟨first, others⟩ := List.cons.inj same
      obtain ⟨keys, values⟩ := Prod.mk.inj first
      rw [toCbor_inj keys, toCbor_inj values, pairsToCbor_inj others]
termination_by structural xs

end

/-! ### Bytes -/

/-- Bytes that begin with a datum begin with no other one, so that data are read one after another
and a hash is of one datum. Headers state lengths in a word. -/
theorem encode_append_unique {a b : PlutusData} {s t : Bytes} (ha : a.encode.length < UInt64.size)
    (hb : b.encode.length < UInt64.size) (same : a.encode ++ s = b.encode ++ t) :
    a = b ∧ s = t := by
  obtain ⟨items, rests⟩ := Cbor.encode_append_inj ha hb same
  exact ⟨toCbor_inj items, rests⟩

theorem encode_append_unique_bignum :
    let a : PlutusData := .constr 7 [.integer (-2 ^ 127), .bytes [1, 2]]
    let b : PlutusData :=
      .constr 7 [.integer (-170141183460469231731687303715884105728), .bytes ([1] ++ [2])]
    a.encode.length = 26 ∧ a.encode ++ [0] = b.encode ++ [0] ∧ a = b ∧ ([0] : Bytes) = [0] := by
  intro a b
  have length : a.encode.length = 26 := by decide +kernel
  have same : a.encode ++ [0] = b.encode ++ [0] := by decide +kernel
  refine ⟨length, same, encode_append_unique ?_ ?_ same⟩
  · rw [length]
    decide
  · rw [← List.append_cancel_right same, length]
    decide

end PlutusData

theorem Datum.toCbor_inj {a b : Datum} (short : a.toCbor.length < UInt64.size)
    (same : a.toCbor = b.toCbor) : a = b := by
  cases a with
  | hash h =>
    cases b with
    | hash h' =>
      obtain ⟨_, parts⟩ := List.cons.inj (Cbor.array.inj same)
      exact congrArg _ (Cbor.digest_inj (List.cons.inj parts).1)
    | inline data' => simp [toCbor] at same
  | inline data =>
    cases b with
    | hash h' => simp [toCbor] at same
    | inline data' =>
      obtain ⟨_, parts⟩ := List.cons.inj (Cbor.array.inj same)
      have listed : Cbor.tagged 24 (.bytes data.encode) ∈
          [Cbor.small 1, .tagged 24 (.bytes data.encode)] := .tail _ (.head _)
      have fits := (Cbor.length_le_of_mem_array listed).trans_lt short
      have items := Cbor.tagged_bytes_encode_inj fits (List.cons.inj parts).1
      exact congrArg _ (PlutusData.toCbor_inj items)

end ConwayTx
