import ConwayTx.Bytes
import Mathlib

/-!
# Bytes

Numbers within the capacity of a width are told apart by their bytes (`bigEndian_inj`). Shortest
bytes are read back (`ofBigEndian_shortest`), and pieces join to what was cut (`flatten_chunks`).
ASCII text is one byte a character (`ofText_of_ascii`).
-/

namespace ConwayTx.Bytes

theorem bigEndian_inj {width m n : Nat} (hm : m < capacity width) (hn : n < capacity width)
    (same : bigEndian width m = bigEndian width n) : m = n := by
  have values := congrArg ofBigEndian same
  rwa [ofBigEndian_bigEndian, ofBigEndian_bigEndian, Nat.mod_eq_of_lt hm, Nat.mod_eq_of_lt hn]
    at values

theorem capacity_eq (width : Nat) : capacity width = 2 ^ (8 * width) := by
  induction width with
  | zero => rfl
  | succ width ih => rw [capacity, ih, Nat.mul_succ, Nat.pow_add, Nat.mul_comm]

theorem lt_capacity_shortest (n : Nat) : n < capacity (n.log2 / 8 + 1) := by
  rw [capacity_eq]
  exact Nat.lt_log2_self.trans_le (Nat.pow_le_pow_right (by decide) (by omega))

theorem ofBigEndian_shortest (n : Nat) : ofBigEndian (shortest n) = n := by
  rw [shortest, ofBigEndian_bigEndian, Nat.mod_eq_of_lt (lt_capacity_shortest n)]

theorem flatten_chunks (size : Nat) (bytes : Bytes) : (chunks size bytes).flatten = bytes := by
  fun_induction chunks size bytes with
  | case1 bytes => simp
  | case2 bytes _ ih => rw [List.flatten_cons, ih, List.take_append_drop]

/-! ### Text -/

theorem toListLoop_eq (bytes : ByteArray) (i : Nat) (read : List UInt8) :
    ByteArray.toList.loop bytes i read = read.reverse ++ bytes.data.toList.drop i := by
  fun_induction ByteArray.toList.loop bytes i read with
  | case1 i read within ih =>
    have inside : i < bytes.data.toList.length := by simpa using within
    have next : bytes.get! i = bytes.data.toList[i] := by
      rw [Array.getElem_toList]
      exact getElem!_pos bytes.data i (by simpa using within)
    rw [ih, List.drop_eq_getElem_cons inside, next]
    simp
  | case2 i read past =>
    rw [List.drop_eq_nil_of_le (by simpa using past), List.append_nil]

theorem toList_eq (bytes : ByteArray) : bytes.toList = bytes.data.toList := by
  rw [ByteArray.toList, toListLoop_eq]
  simp

theorem ofText_inj {a b : String} (same : ofText a = ofText b) : a = b := by
  rw [ofText, ofText, toList_eq, toList_eq] at same
  exact String.toByteArray_inj.1 (ByteArray.ext (Array.toList_inj.1 same))

theorem ofText_ofList (cs : List Char) :
    ofText (String.ofList cs) = cs.flatMap String.utf8EncodeChar := by
  rw [ofText, String.toUTF8_eq_toByteArray, String.toByteArray_ofList, toList_eq, List.utf8Encode]
  simp

theorem ofText_of_ascii {cs : List Char} (ascii : ∀ c ∈ cs, c.toNat < 128) :
    ofText (String.ofList cs) = cs.map fun c => UInt8.ofNat c.toNat := by
  rw [ofText_ofList, List.map_eq_flatMap]
  refine List.flatMap_congr fun c mem => ?_
  exact String.utf8EncodeChar_eq_singleton
    (Char.utf8Size_eq_one_iff.2 (Nat.le_of_lt_succ (ascii c mem)))

theorem length_ofText_of_ascii {cs : List Char} (ascii : ∀ c ∈ cs, c.toNat < 128) :
    (ofText (String.ofList cs)).length = cs.length := by
  rw [ofText_of_ascii ascii, List.length_map]

end ConwayTx.Bytes
