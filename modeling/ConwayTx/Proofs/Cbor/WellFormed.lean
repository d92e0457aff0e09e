import ConwayTx.Cbor.Reader
import ConwayTx.Proofs.Cbor.Reading

/-!
# Well-formed items

Which bytes are one item is decided by headers alone: each states how many bytes or items follow
it, and nothing is left over. Every encoding is one well-formed item (`wellFormed_encode`).
-/

namespace ConwayTx.Cbor

/-! ### Headers -/

theorem header?_append {s r : Bytes} {h : Header} (found : header? s = some (h, r)) (t : Bytes) :
    header? (s ++ t) = some (h, r ++ t) := by
  cases s with
  | nil => simp [header?] at found
  | cons b tail =>
    simp only [header?, List.cons_append] at found ⊢
    have wide (width : Nat) (fits : width ≤ tail.length) :
        width ≤ (tail ++ t).length ∧ (tail ++ t).take width = tail.take width ∧
          (tail ++ t).drop width = tail.drop width ++ t :=
      ⟨by rw [List.length_append]; omega, List.take_append_of_le_length fits,
        List.drop_append_of_le_length fits⟩
    split_ifs at found ⊢ <;> grind

/-- Numbers that the first byte does not hold follow it, in one of four widths. -/
theorem additional_wide {n : Nat} (large : 24 ≤ n) :
    (additional n = 24 ∧ headLength n = 2) ∨ (additional n = 25 ∧ headLength n = 3) ∨
      (additional n = 26 ∧ headLength n = 5) ∨ (additional n = 27 ∧ headLength n = 9) := by
  unfold additional headLength
  split_ifs <;> omega

theorem toNat_first {major code : Nat} (small : major < 8) (low : code < 32) :
    (UInt8.ofNat (32 * major + code)).toNat / 32 = major ∧
      (UInt8.ofNat (32 * major + code)).toNat % 32 = code := by
  rw [UInt8.toNat_ofNat', Nat.mod_eq_of_lt (by omega)]
  omega

theorem header?_inline {major n : Nat} (small : major < 8) (inline : n < 24) (rest : Bytes) :
    header? (UInt8.ofNat (32 * major + n) :: rest) = some (⟨major, some n⟩, rest) := by
  obtain ⟨kind, low⟩ := toNat_first small (inline.trans (by decide) : n < 32)
  simp only [header?, kind, low, if_pos inline]

theorem header?_wide {major code : Nat} {wide : Bytes} (small : major < 8)
    (width : (code = 24 ∧ wide.length = 1) ∨ (code = 25 ∧ wide.length = 2) ∨
      (code = 26 ∧ wide.length = 4) ∨ (code = 27 ∧ wide.length = 8)) (rest : Bytes) :
    header? (UInt8.ofNat (32 * major + code) :: (wide ++ rest)) =
      some (⟨major, some (Bytes.ofBigEndian wide)⟩, rest) := by
  obtain ⟨kind, low⟩ := toNat_first small (by omega : code < 32)
  simp only [header?, kind, low]
  rcases width with ⟨rfl, width⟩ | ⟨rfl, width⟩ | ⟨rfl, width⟩ | ⟨rfl, width⟩ <;>
  simp [width]

/-- A header is read back, with all that follows it. -/
theorem header?_opening {major : Nat} {number : Option Nat} (small : major < 8)
    (word : ∀ n ∈ number, n < UInt64.size) (rest : Bytes) :
    header? (opening major number ++ rest) = some (⟨major, number⟩, rest) := by
  rw [opening_eq, List.cons_append]
  cases number with
  | none =>
    obtain ⟨kind, low⟩ := toNat_first small (by decide : 31 < 32)
    simp only [header?, info, following, Option.map_none, Option.getD_none, List.nil_append, kind, low]
    rfl
  | some n =>
    simp only [info, following, Option.map_some, Option.getD_some]
    by_cases inline : n < 24
    · simp only [additional, headLength, if_pos inline]
      exact header?_inline small inline rest
    · have large : 24 ≤ n := Nat.not_lt.1 inline
      have value : Bytes.ofBigEndian (Bytes.bigEndian (headLength n - 1) n) = n := by
        rw [Bytes.ofBigEndian_bigEndian,
          Nat.mod_eq_of_lt (lt_capacity_headLength large (word n rfl))]
      rw [header?_wide small _ rest, value]
      rw [Bytes.length_bigEndian]
      have widths := additional_wide large
      omega

theorem header?_encode {c : Cbor} (short : c.length < UInt64.size) (rest : Bytes) :
    header? (c.encode ++ rest) = some (⟨c.major, c.number?⟩, c.content ++ rest) := by
  rw [encode_eq, List.append_assoc]
  exact header?_opening c.major_lt (fun _ given => number_lt short given) _

/-! ### Well-formed items -/

/-- A string with a length; of bytes, or of text in UTF-8. -/
def IsString (major : Nat) (s : Bytes) : Prop :=
  ∃ content, header? s = some (⟨major, some content.length⟩, content) ∧
    (major = 3 → isText content = true)

/-- The bytes are one item: headers state the numbers of bytes and of items that are there, to the last
byte. -/
inductive WellFormed : Bytes → Prop where
  | number {s : Bytes} {major n : Nat} (kind : major = 0 ∨ major = 1)
      (header : header? s = some (⟨major, some n⟩, [])) : WellFormed s
  | string {s : Bytes} {major : Nat} (kind : major = 2 ∨ major = 3) (whole : IsString major s) :
      WellFormed s
  | pieces {s : Bytes} {major : Nat} {pieces : List Bytes} (kind : major = 2 ∨ major = 3)
      (header : header? s = some (⟨major, none⟩, pieces.flatten ++ [stop]))
      (each : ∀ piece ∈ pieces, IsString major piece) : WellFormed s
  | array {s : Bytes} {items : List Bytes}
      (header : header? s = some (⟨4, some items.length⟩, items.flatten))
      (each : ∀ item ∈ items, WellFormed item) : WellFormed s
  | openArray {s : Bytes} {items : List Bytes}
      (header : header? s = some (⟨4, none⟩, items.flatten ++ [stop]))
      (each : ∀ item ∈ items, WellFormed item) : WellFormed s
  | map {s : Bytes} {entries : List (Bytes × Bytes)}
      (header : header? s =
        some (⟨5, some entries.length⟩, entries.flatMap fun entry => entry.1 ++ entry.2))
      (keys : ∀ entry ∈ entries, WellFormed entry.1)
      (values : ∀ entry ∈ entries, WellFormed entry.2) : WellFormed s
  | openMap {s : Bytes} {entries : List (Bytes × Bytes)}
      (header : header? s =
        some (⟨5, none⟩, (entries.flatMap fun entry => entry.1 ++ entry.2) ++ [stop]))
      (keys : ∀ entry ∈ entries, WellFormed entry.1)
      (values : ∀ entry ∈ entries, WellFormed entry.2) : WellFormed s
  | tagged {s item : Bytes} {tag : Nat} (header : header? s = some (⟨6, some tag⟩, item))
      (inner : WellFormed item) : WellFormed s
  /-- Two bytes are not spent on what fits into one. -/
  | simple {s : Bytes} {n : Nat} (header : header? s = some (⟨7, some n⟩, []))
      (shortest : s.length = 2 → 32 ≤ n) : WellFormed s

theorem isText_ofText (text : String) : isText (Bytes.ofText text) = true := by
  rw [isText, Bytes.ofText, Bytes.toList_eq]
  rw [Array.toArray_toList, String.fromUTF8?]
  exact congrArg Option.isSome (dif_pos text.isValidUTF8)

theorem isString_byteString {piece : Bytes} (short : piece.length < UInt64.size) :
    IsString 2 (byteString piece) := by
  refine ⟨piece, ?_, fun text => by cases text⟩
  exact @header?_opening 2 (some piece.length) (by decide) (by rintro _ ⟨⟩; exact short) piece

theorem length_le_of_mem_pieces {pieces : List Bytes} {piece : Bytes} (mem : piece ∈ pieces) :
    piece.length ≤ (pieces.flatMap byteString).length := by
  have fits := List.single_le_sum (fun _ _ => Nat.zero_le _) _
    (List.mem_map_of_mem (f := fun p => (byteString p).length) mem)
  rw [byteString, List.length_append] at fits
  rw [List.length_flatMap]
  omega

theorem encodeAll_eq_flatten (items : List Cbor) : encodeAll items = (items.map encode).flatten := by
  induction items with
  | nil => rfl
  | cons item rest ih => rw [encodeAll, List.map_cons, List.flatten_cons, ih]

def encodePair (entry : Cbor × Cbor) : Bytes × Bytes := (entry.1.encode, entry.2.encode)

theorem encodePairs_eq_flatMap (entries : List (Cbor × Cbor)) :
    encodePairs entries = (entries.map encodePair).flatMap fun entry => entry.1 ++ entry.2 := by
  induction entries with
  | nil => rfl
  | cons entry rest ih => rw [encodePairs, List.map_cons, List.flatMap_cons, ih]; rfl

mutual

/-- An encoding is one well-formed item. -/
theorem wellFormed_encode (c : Cbor) (short : c.length < UInt64.size) : WellFormed c.encode := by
  have header := header?_encode short []
  rw [List.append_nil, List.append_nil] at header
  have within := (content_le c).trans_lt short
  cases c with
  | unsigned n => exact .number (.inl rfl) header
  | negative n => exact .number (.inr rfl) header
  | bytes content => exact .string (.inl rfl) ⟨content, header, fun text => by cases text⟩
  | pieces parts =>
    refine @WellFormed.pieces _ _ (parts.map byteString) (.inl rfl) header ?_
    intro piece mem
    obtain ⟨part, listed, rfl⟩ := List.mem_map.1 mem
    rw [content, List.length_append] at within
    have fits := length_le_of_mem_pieces listed
    exact isString_byteString (by omega)
  | text content => exact .string (.inr rfl) ⟨_, header, fun _ => isText_ofText content⟩
  | array items =>
    refine @WellFormed.array _ (items.map encode) ?_ ?_
    · rw [header, major, number?, content, encodeAll_eq_flatten, List.length_map]
    · exact List.forall_mem_map.2 (wellFormed_encodeAll items within)
  | openArray items =>
    refine @WellFormed.openArray _ (items.map encode) ?_ ?_
    · rw [header, major, number?, content, encodeAll_eq_flatten]
    · rw [content, List.length_append] at within
      exact List.forall_mem_map.2 (wellFormed_encodeAll items (by omega))
  | map entries =>
    refine @WellFormed.map _ (entries.map encodePair) ?_ ?_ ?_
    · rw [header, major, number?, content, encodePairs_eq_flatMap, List.length_map]
    · exact List.forall_mem_map.2 fun e mem => (wellFormed_encodePairs entries within e mem).1
    · exact List.forall_mem_map.2 fun e mem => (wellFormed_encodePairs entries within e mem).2
  | tagged tag item => exact .tagged header (wellFormed_encode item within)
  | bool b => cases b <;> exact .simple header (fun two => by cases two)
  | null => exact .simple header fun two => by cases two
termination_by structural c

theorem wellFormed_encodeAll (items : List Cbor) (short : (encodeAll items).length < UInt64.size) :
    ∀ c ∈ items, WellFormed c.encode := by
  cases items with
  | nil => exact List.forall_mem_nil _
  | cons item rest =>
    rw [encodeAll, List.length_append] at short
    exact List.forall_mem_cons.2 ⟨wellFormed_encode item (by unfold length; omega),
      wellFormed_encodeAll rest (by omega)⟩
termination_by structural items

theorem wellFormed_encodePairs (entries : List (Cbor × Cbor))
    (short : (encodePairs entries).length < UInt64.size) :
    ∀ e ∈ entries, WellFormed e.1.encode ∧ WellFormed e.2.encode := by
  rcases entries with _ | ⟨⟨key, value⟩, rest⟩
  · exact List.forall_mem_nil _
  · rw [encodePairs, List.length_append, List.length_append] at short
    exact List.forall_mem_cons.2 ⟨⟨wellFormed_encode key (by unfold length; omega),
      wellFormed_encode value (by unfold length; omega)⟩, wellFormed_encodePairs rest (by omega)⟩
termination_by structural entries

end

end ConwayTx.Cbor
