import ConwayTx.Proofs.Bech32.Checksum
import ConwayTx.Proofs.Bech32.Groups
import ConwayTx.Proofs.Bytes

/-!
# Bech32 text read back

The last separator stands in front of the symbols, which are never written as one; the symbols
carry their checksum, and the bytes are regrouped. So what is written under a prefix in lower case is
read back with that prefix (`decode_encode?`).
-/

namespace ConwayTx.Bech32

/-! ### Characters -/

theorem symbolValue?_symbol : ∀ {n : ℕ}, n < 32 → symbolValue? (symbol n) = some n := by decide

/-- Symbols are ASCII, in lower case, and no separators. -/
theorem symbol_plain : ∀ {n : ℕ}, n < 32 →
    symbol n ≠ '1' ∧ (symbol n).isUpper = false ∧ (symbol n).toNat < 128 := by decide

theorem splitSeparator?_append (before : List Char) {after : List Char} (absent : '1' ∉ after) :
    splitSeparator? (before ++ '1' :: after) = some (before, after) := by
  have other : ∀ c ∈ after.reverse, decide (c ≠ '1') = true := by
    intro c mem
    rw [decide_eq_true_eq]
    rintro rfl
    exact absent (List.mem_reverse.1 mem)
  have reversed : (before ++ '1' :: after).reverse = after.reverse ++ '1' :: before.reverse := by
    simp
  rw [splitSeparator?, reversed, List.dropWhile_append_of_pos other,
    List.takeWhile_append_of_pos other]
  simp

theorem ascii_of_readPrefix? {hrp read : List Char} (h : readPrefix? hrp = some read) :
    ∀ c ∈ hrp, c.toNat < 128 := by
  unfold readPrefix? at h
  split at h
  · rename_i readable
    intro c mem
    have bounds := List.all_eq_true.1 readable.2.2 c mem
    simp only [isPrefixChar, Bool.and_eq_true, decide_eq_true_eq] at bounds
    omega
  · cases h

/-! ### Symbols -/

/-- The symbols of bytes, their checksum at the end. -/
def sealed (hrp : List Char) (bytes : Bytes) : List ℕ :=
  toSymbols bytes ++ checksum hrp (toSymbols bytes)

variable (hrp : List Char) (bytes : Bytes)

theorem sealed_lt : ∀ s ∈ sealed hrp bytes, s < 32 := by
  intro s mem
  rcases List.mem_append.1 mem with content | check
  · exact toSymbols_lt bytes s content
  · exact checksum_lt _ _ s check

@[simp] theorem length_sealed :
    (sealed hrp bytes).length = (toSymbols bytes).length + checksumLength := by
  rw [sealed, List.length_append, length_checksum]

theorem residue_sealed : residue (expandPrefix hrp ++ sealed hrp bytes) = classicConstant := by
  rw [sealed, ← List.append_assoc]
  exact residue_checksum _ _

theorem ofSymbols_sealed :
    ofSymbols ((sealed hrp bytes).take ((sealed hrp bytes).length - checksumLength)) = bytes := by
  rw [length_sealed, Nat.add_sub_cancel, sealed, List.take_left, ofSymbols_toSymbols]

theorem mapM_symbolValue? {symbols : List ℕ} (small : ∀ s ∈ symbols, s < 32) :
    (symbols.map symbol).mapM symbolValue? = some symbols := by
  induction symbols with
  | nil => rfl
  | cons s rest ih =>
    obtain ⟨first, others⟩ := List.forall_mem_cons.1 small
    rw [List.map_cons, List.mapM_cons, symbolValue?_symbol first, ih others]
    rfl

/-! ### Writing -/

/-- Prefix, separator and symbols. -/
def characters (hrp : List Char) (bytes : Bytes) : List Char :=
  hrp ++ '1' :: (sealed hrp bytes).map symbol

theorem length_characters (hrp : List Char) (bytes : Bytes) :
    (characters hrp bytes).length = hrp.length + (toSymbols bytes).length + 7 := by
  simp [characters, checksumLength, Nat.add_assoc]

theorem encode?_eq_some_iff {hrp text : String} {bytes : Bytes} :
    encode? hrp bytes = some text ↔
      (characters hrp.toList bytes).length ≤ maxLength ∧
        text = String.ofList (characters hrp.toList bytes) := by
  show (if (characters hrp.toList bytes).length ≤ maxLength then
    some (String.ofList (characters hrp.toList bytes)) else none) = some text ↔ _
  split
  · rename_i fits
    rw [Option.some.injEq, eq_comm]
    exact (and_iff_right fits).symm
  · rename_i large
    simp [large]

theorem forall_characters {p : Char → Prop} {hrp : List Char} (before : ∀ c ∈ hrp, p c)
    (separator : p '1') (symbols : ∀ n < 32, p (symbol n)) (bytes : Bytes) :
    ∀ c ∈ characters hrp bytes, p c := by
  intro c mem
  rcases List.mem_append.1 mem with front | tail
  · exact before c front
  · rcases List.mem_cons.1 tail with rfl | inside
    · exact separator
    · obtain ⟨s, held, rfl⟩ := List.mem_map.1 inside
      exact symbols s (sealed_lt hrp bytes s held)

/-! ### Reading what was written -/

/-- Text is read from its parts when all of them are in order. -/
theorem decode_of_parts {cs hrp after : List Char} {symbols : List ℕ}
    (oneCase : isMixedCase cs = false) (split : splitSeparator? cs = some (hrp, after))
    (readable : readPrefix? hrp = some hrp) (values : after.mapM symbolValue? = some symbols)
    (short : (Bytes.ofText (String.ofList cs)).length ≤ maxLength)
    (long : checksumLength ≤ symbols.length)
    (checked : residue (expandPrefix hrp ++ symbols) = classicConstant) :
    decode (String.ofList cs) =
      .ok (String.ofList hrp, ofSymbols (symbols.take (symbols.length - checksumLength))) := by
  have lengths : ¬ (maxLength < (Bytes.ofText (String.ofList cs)).length ∨
      symbols.length < checksumLength) := by omega
  unfold decode
  rw [String.toList_ofList]
  dsimp only
  rw [if_neg (by rw [oneCase]; exact Bool.false_ne_true), split]
  dsimp only
  rw [readable]
  dsimp only
  rw [values]
  dsimp only
  rw [if_neg lengths, checked, if_neg fun other => other.1 rfl]
  rfl

/-- What is written under a prefix in lower case is read back, with the prefix. -/
theorem decode_encode? {hrp text : String} {bytes : Bytes}
    (readable : readPrefix? hrp.toList = some hrp.toList)
    (lower : hrp.toList.any Char.isUpper = false) (written : encode? hrp bytes = some text) :
    decode text = .ok (hrp, bytes) := by
  obtain ⟨fits, rfl⟩ := encode?_eq_some_iff.1 written
  have ascii : ∀ c ∈ characters hrp.toList bytes, c.toNat < 128 :=
    forall_characters (ascii_of_readPrefix? readable) (by decide) (fun _ lt => (symbol_plain lt).2.2)
      bytes
  have oneCase : isMixedCase (characters hrp.toList bytes) = false := by
    have all : ∀ c ∈ characters hrp.toList bytes, ¬ c.isUpper = true := by
      refine forall_characters (List.any_eq_false.1 lower) (by decide) (fun n lt => ?_) bytes
      rw [(symbol_plain lt).2.1]
      exact Bool.false_ne_true
    rw [isMixedCase, Bool.and_eq_false_iff]
    exact .inl (List.any_eq_false.2 all)
  have absent : '1' ∉ (sealed hrp.toList bytes).map symbol := by
    intro mem
    obtain ⟨s, held, same⟩ := List.mem_map.1 mem
    exact (symbol_plain (sealed_lt _ _ s held)).1 same
  have short : (Bytes.ofText (String.ofList (characters hrp.toList bytes))).length ≤ maxLength := by
    rwa [Bytes.length_ofText_of_ascii ascii]
  rw [decode_of_parts oneCase (splitSeparator?_append _ absent) readable
    (mapM_symbolValue? (sealed_lt _ _)) short (by simp) (residue_sealed _ _), ofSymbols_sealed,
    String.ofList_toList]

end ConwayTx.Bech32
