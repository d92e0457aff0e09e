import ConwayTx.Proofs.Bytes
import ConwayTx.Proofs.Cbor.Length

/-!
# Reading items back

An item is a header and the content it announces. Bytes that begin with an item begin with no
other one (`encode_append_inj`), so an encoding belongs to one item (`encode_inj`). Lengths are
words, which the length of the encoding bounds.
-/

namespace ConwayTx.Cbor

/-! ### Headers -/

/-- What the first byte of a header holds besides the major type. -/
def additional (n : Nat) : Nat :=
  if n < 24 then n
  else if n < UInt8.size then 24
  else if n < UInt16.size then 25
  else if n < UInt32.size then 26
  else 27

theorem additional_lt (n : Nat) : additional n < 28 := by
  unfold additional
  split_ifs <;> omega

theorem headLength_of_additional {m n : Nat} (info : additional m = additional n) :
    headLength m = headLength n := by
  unfold additional at info
  unfold headLength
  split_ifs at info ⊢ <;> omega

theorem lt_capacity_headLength {n : Nat} (large : 24 ≤ n) (word : n < UInt64.size) :
    n < Bytes.capacity (headLength n - 1) := by
  unfold headLength
  rw [if_neg (by omega)]
  split_ifs with one two four
  · exact one
  · exact two
  · exact four
  · exact word

/-- Small numbers stand in the first byte, others in the bytes after it. -/
theorem number_inj {m n : Nat} (hm : m < UInt64.size) (hn : n < UInt64.size)
    (info : additional m = additional n)
    (following : Bytes.bigEndian (headLength m - 1) m = Bytes.bigEndian (headLength n - 1) n) :
    m = n := by
  by_cases small : m < 24 ∨ n < 24
  · unfold additional at info
    split_ifs at info <;> omega
  · rw [headLength_of_additional info] at following
    refine Bytes.bigEndian_inj ?_ (lt_capacity_headLength (by omega) hn) following
    rw [← headLength_of_additional info]
    exact lt_capacity_headLength (by omega) hm

/-- The header of an item; without a number, the one of an indefinite length. -/
def opening (major : Nat) : Option Nat → Bytes
  | some n => head major n
  | none => [UInt8.ofNat (32 * major + 31)]

def info (number : Option Nat) : Nat := (number.map additional).getD 31

def following : Option Nat → Bytes
  | some n => Bytes.bigEndian (headLength n - 1) n
  | none => []

theorem opening_eq (major : Nat) (number : Option Nat) :
    opening major number = UInt8.ofNat (32 * major + info number) :: following number := by
  cases number with
  | none => rfl
  | some n =>
    show head major n =
      UInt8.ofNat (32 * major + additional n) :: Bytes.bigEndian (headLength n - 1) n
    unfold head additional headLength
    split_ifs <;> rfl

theorem info_lt (number : Option Nat) : info number < 32 := by
  cases number with
  | none => decide
  | some n => exact (additional_lt n).trans (by decide)

theorem firstByte_inj {j k a b : Nat} (hj : j < 8) (hk : k < 8) (ha : a < 32) (hb : b < 32)
    (same : UInt8.ofNat (32 * j + a) = UInt8.ofNat (32 * k + b)) : j = k ∧ a = b := by
  have values := congrArg UInt8.toNat same
  rw [UInt8.toNat_ofNat', UInt8.toNat_ofNat', Nat.mod_eq_of_lt (by omega),
    Nat.mod_eq_of_lt (by omega)] at values
  omega

theorem opening_append_inj {j k : Nat} {m n : Option Nat} {s t : Bytes} (hj : j < 8) (hk : k < 8)
    (hm : ∀ x ∈ m, x < UInt64.size) (hn : ∀ x ∈ n, x < UInt64.size)
    (same : opening j m ++ s = opening k n ++ t) : j = k ∧ m = n ∧ s = t := by
  rw [opening_eq, opening_eq] at same
  obtain ⟨first, rest⟩ := List.cons.inj same
  obtain ⟨majors, infos⟩ := firstByte_inj hj hk (info_lt m) (info_lt n) first
  cases m with
  | none =>
    cases n with
    | none => exact ⟨majors, rfl, rest⟩
    | some n => exact absurd infos (additional_lt n |>.trans (by decide) |>.ne')
  | some m =>
    cases n with
    | none => exact absurd infos (additional_lt m |>.trans (by decide) |>.ne)
    | some n =>
      obtain ⟨numbers, rest⟩ := List.append_inj rest (by
        rw [following, following, Bytes.length_bigEndian, Bytes.length_bigEndian,
          headLength_of_additional infos])
      exact ⟨majors, congrArg some (number_inj (hm m rfl) (hn n rfl) infos numbers), rest⟩

/-- The byte that closes an indefinite length opens no item. -/
theorem opening_append_ne_stop {major : Nat} {number : Option Nat} {s t : Bytes} (small : major < 8)
    (closed : number = none → major < 7) : opening major number ++ s ≠ stop :: t := by
  intro same
  rw [opening_eq] at same
  obtain ⟨majors, infos⟩ := firstByte_inj small (by decide : 7 < 8) (info_lt number)
    (by decide : 31 < 32) (List.cons.inj same).1
  cases number with
  | none => exact (closed rfl).ne majors
  | some n => exact absurd infos (additional_lt n |>.trans (by decide) |>.ne)

/-! ### Items -/

def major : Cbor → Nat
  | unsigned _ => 0
  | negative _ => 1
  | bytes _ | pieces _ => 2
  | text _ => 3
  | array _ | openArray _ => 4
  | map _ => 5
  | tagged _ _ => 6
  | bool _ | null => 7

def number? : Cbor → Option Nat
  | unsigned n | negative n => some n.toNat
  | bytes content => some content.length
  | text content => some (Bytes.ofText content).length
  | array items => some items.length
  | map entries => some entries.length
  | tagged tag _ => some tag.toNat
  | bool false => some 20
  | bool true => some 21
  | null => some 22
  | pieces _ | openArray _ => none

def content : Cbor → Bytes
  | bytes content => content
  | pieces content => content.flatMap byteString ++ [stop]
  | text content => Bytes.ofText content
  | array items => encodeAll items
  | openArray items => encodeAll items ++ [stop]
  | map entries => encodePairs entries
  | tagged _ item => item.encode
  | unsigned _ | negative _ | bool _ | null => []

theorem encode_eq (c : Cbor) : c.encode = opening c.major c.number? ++ c.content := by
  cases c with
  | unsigned n | negative n => exact (List.append_nil _).symm
  | bool b => cases b <;> rfl
  | _ => rfl

theorem major_lt (c : Cbor) : c.major < 8 := by
  cases c <;> simp [major]

theorem content_le (c : Cbor) : c.content.length ≤ c.length := by
  rw [length, encode_eq, List.length_append]
  exact Nat.le_add_left _ _

theorem number_lt {c : Cbor} (short : c.length < UInt64.size) {n : Nat}
    (given : c.number? = some n) : n < UInt64.size := by
  cases c with
  | unsigned m | negative m | tagged m _ =>
    cases given
    exact m.toNat_lt_size
  | bytes _ | text _ =>
    cases given
    exact (content_le _).trans_lt short
  | array items =>
    cases given
    exact (count_le_array items).trans_lt short
  | map entries =>
    cases given
    exact (count_le_map entries).trans_lt short
  | bool b =>
    cases b <;> cases given <;> decide
  | null =>
    cases given
    decide
  | pieces _ | openArray _ => cases given

theorem encode_append_ne_stop (c : Cbor) (s t : Bytes) : c.encode ++ s ≠ stop :: t := by
  rw [encode_eq, List.append_assoc]
  refine opening_append_ne_stop c.major_lt fun closed => ?_
  cases c with
  | bool b => cases b <;> cases closed
  | pieces _ | openArray _ => simp [major]
  | _ => cases closed

theorem pieces_append_inj {xs ys : List Bytes} {s t : Bytes}
    (hx : (xs.flatMap byteString).length < UInt64.size)
    (hy : (ys.flatMap byteString).length < UInt64.size)
    (same : xs.flatMap byteString ++ stop :: s = ys.flatMap byteString ++ stop :: t) :
    xs = ys ∧ s = t := by
  -- Both sides stop after the same piece, for a piece never begins with the byte that stops.
  induction xs generalizing ys with
  | nil =>
    cases ys with
    | nil => exact ⟨rfl, (List.cons.inj same).2⟩
    | cons y ys =>
      rw [List.flatMap_cons, List.append_assoc] at same
      exact absurd same.symm (encode_append_ne_stop (bytes y) _ _)
  | cons x xs ih =>
    cases ys with
    | nil =>
      rw [List.flatMap_cons, List.append_assoc] at same
      exact absurd same (encode_append_ne_stop (bytes x) _ _)
    | cons y ys =>
      simp only [List.flatMap_cons, List.append_assoc, List.length_append, byteString] at same hx hy
      obtain ⟨_, lengths, same⟩ := opening_append_inj (m := some x.length) (n := some y.length)
        (by decide) (by decide) (by rintro _ ⟨⟩; omega) (by rintro _ ⟨⟩; omega) same
      obtain ⟨rfl, others⟩ := List.append_inj same (Option.some.inj lengths)
      obtain ⟨rfl, rest⟩ := ih (by omega) (by omega) others
      exact ⟨rfl, rest⟩

mutual

/-- Bytes that begin with one item begin with no other. -/
theorem encode_append_inj {a b : Cbor} {s t : Bytes} (ha : a.length < UInt64.size)
    (hb : b.length < UInt64.size) (same : a.encode ++ s = b.encode ++ t) : a = b ∧ s = t := by
  rw [encode_eq a, encode_eq b, List.append_assoc, List.append_assoc] at same
  obtain ⟨majors, numbers, rest⟩ := opening_append_inj a.major_lt b.major_lt
    (fun _ => number_lt ha) (fun _ => number_lt hb) same
  have within := (content_le a).trans_lt ha
  have within' := (content_le b).trans_lt hb
  -- Items of one major type differ in whether they have a number, so the headers settle which of
  -- the constructors meet; the contents are then as long as the number says, or end at a stop.
  cases a with
  | unsigned m =>
    cases b with
    | unsigned n => exact ⟨congrArg _ (UInt64.toNat_inj.1 (Option.some.inj numbers)), rest⟩
    | _ => simp [major] at majors
  | negative m =>
    cases b with
    | negative n => exact ⟨congrArg _ (UInt64.toNat_inj.1 (Option.some.inj numbers)), rest⟩
    | _ => simp [major] at majors
  | bytes x =>
    cases b with
    | bytes y =>
      obtain ⟨same, rest⟩ := List.append_inj rest (Option.some.inj numbers)
      exact ⟨congrArg _ same, rest⟩
    | _ => simp [major, number?] at majors numbers
  | pieces xs =>
    cases b with
    | pieces ys =>
      simp only [content, List.append_assoc, List.singleton_append, List.length_append]
        at rest within within'
      obtain ⟨same, rest⟩ := pieces_append_inj (by omega) (by omega) rest
      exact ⟨congrArg _ same, rest⟩
    | _ => simp [major, number?] at majors numbers
  | text x =>
    cases b with
    | text y =>
      obtain ⟨same, rest⟩ := List.append_inj rest (Option.some.inj numbers)
      exact ⟨congrArg _ (Bytes.ofText_inj same), rest⟩
    | _ => simp [major] at majors
  | array xs =>
    cases b with
    | array ys =>
      obtain ⟨same, rest⟩ := encodeAll_append_inj within within' (Option.some.inj numbers) rest
      exact ⟨congrArg _ same, rest⟩
    | _ => simp [major, number?] at majors numbers
  | openArray xs =>
    cases b with
    | openArray ys =>
      simp only [content, List.append_assoc, List.singleton_append, List.length_append]
        at rest within within'
      obtain ⟨same, rest⟩ := encodeAll_stop_inj (by omega) (by omega) rest
      exact ⟨congrArg _ same, rest⟩
    | _ => simp [major, number?] at majors numbers
  | map xs =>
    cases b with
    | map ys =>
      obtain ⟨same, rest⟩ := encodePairs_append_inj within within' (Option.some.inj numbers) rest
      exact ⟨congrArg _ same, rest⟩
    | _ => simp [major] at majors
  | tagged m x =>
    cases b with
    | tagged n y =>
      obtain ⟨same, rest⟩ := encode_append_inj within within' rest
      exact ⟨congrArg₂ _ (UInt64.toNat_inj.1 (Option.some.inj numbers)) same, rest⟩
    | _ => simp [major] at majors
  | bool x =>
    cases b with
    | bool y => cases x <;> cases y <;> first | exact ⟨rfl, rest⟩ | cases numbers
    | null => cases x <;> cases numbers
    | _ => simp [major] at majors
  | null =>
    cases b with
    | null => exact ⟨rfl, rest⟩
    | bool y => cases y <;> cases numbers
    | _ => simp [major] at majors
termination_by structural a

theorem encodeAll_append_inj {xs ys : List Cbor} {s t : Bytes}
    (hx : (encodeAll xs).length < UInt64.size) (hy : (encodeAll ys).length < UInt64.size)
    (count : xs.length = ys.length) (same : encodeAll xs ++ s = encodeAll ys ++ t) :
    xs = ys ∧ s = t := by
  cases xs with
  | nil =>
    obtain rfl := List.eq_nil_of_length_eq_zero count.symm
    exact ⟨rfl, same⟩
  | cons x xs =>
    cases ys with
    | nil => cases count
    | cons y ys =>
      simp only [encodeAll, List.append_assoc, List.length_append] at same hx hy
      obtain ⟨first, same⟩ :=
        encode_append_inj (by unfold length; omega) (by unfold length; omega) same
      obtain ⟨others, rest⟩ := encodeAll_append_inj (by omega) (by omega) (Nat.succ.inj count) same
      exact ⟨congrArg₂ _ first others, rest⟩
termination_by structural xs

theorem encodeAll_stop_inj {xs ys : List Cbor} {s t : Bytes}
    (hx : (encodeAll xs).length < UInt64.size) (hy : (encodeAll ys).length < UInt64.size)
    (same : encodeAll xs ++ stop :: s = encodeAll ys ++ stop :: t) : xs = ys ∧ s = t := by
  cases xs with
  | nil =>
    cases ys with
    | nil => exact ⟨rfl, (List.cons.inj same).2⟩
    | cons y ys =>
      rw [encodeAll, encodeAll, List.append_assoc] at same
      exact absurd same.symm (y.encode_append_ne_stop _ _)
  | cons x xs =>
    cases ys with
    | nil =>
      rw [encodeAll, encodeAll, List.append_assoc] at same
      exact absurd same (x.encode_append_ne_stop _ _)
    | cons y ys =>
      simp only [encodeAll, List.append_assoc, List.length_append] at same hx hy
      obtain ⟨first, same⟩ :=
        encode_append_inj (by unfold length; omega) (by unfold length; omega) same
      obtain ⟨others, rest⟩ := encodeAll_stop_inj (by omega) (by omega) same
      exact ⟨congrArg₂ _ first others, rest⟩
termination_by structural xs

theorem encodePairs_append_inj {xs ys : List (Cbor × Cbor)} {s t : Bytes}
    (hx : (encodePairs xs).length < UInt64.size) (hy : (encodePairs ys).length < UInt64.size)
    (count : xs.length = ys.length) (same : encodePairs xs ++ s = encodePairs ys ++ t) :
    xs = ys ∧ s = t := by
  rcases xs with _ | ⟨⟨k, v⟩, xs⟩
  · obtain rfl := List.eq_nil_of_length_eq_zero count.symm
    exact ⟨rfl, same⟩
  · rcases ys with _ | ⟨⟨l, w⟩, ys⟩
    · cases count
    · simp only [encodePairs, List.append_assoc, List.length_append] at same hx hy
      obtain ⟨keys, same⟩ :=
        encode_append_inj (by unfold length; omega) (by unfold length; omega) same
      obtain ⟨values, same⟩ :=
        encode_append_inj (by unfold length; omega) (by unfold length; omega) same
      obtain ⟨others, rest⟩ :=
        encodePairs_append_inj (by omega) (by omega) (Nat.succ.inj count) same
      exact ⟨by rw [keys, values, others], rest⟩
termination_by structural xs

end

theorem encode_inj {a b : Cbor} (ha : a.length < UInt64.size) (same : a.encode = b.encode) :
    a = b := by
  have hb : b.length < UInt64.size := by rwa [length, ← same]
  exact (encode_append_inj ha hb (s := []) (t := []) (by rw [same])).1

/-- A sequence of items is read back without a header of its own. -/
theorem encodeAll_inj {xs ys : List Cbor} (short : (encodeAll xs).length < UInt64.size)
    (same : encodeAll xs = encodeAll ys) : xs = ys := by
  have nonempty (c : Cbor) (rest : Bytes) : c.encode ++ rest ≠ [] := by
    intro empty
    have := c.length_pos
    rw [length, (List.append_eq_nil_iff.1 empty).1] at this
    cases this
  induction xs generalizing ys with
  | nil =>
    cases ys with
    | nil => rfl
    | cons y ys => exact absurd same.symm (nonempty y _)
  | cons x xs ih =>
    cases ys with
    | nil => exact absurd same (nonempty x _)
    | cons y ys =>
      have short' := short
      rw [same] at short'
      simp only [encodeAll, List.length_append] at same short short'
      obtain ⟨first, others⟩ :=
        encode_append_inj (by unfold length; omega) (by unfold length; omega) same
      rw [first, ih (by omega) others]

end ConwayTx.Cbor
