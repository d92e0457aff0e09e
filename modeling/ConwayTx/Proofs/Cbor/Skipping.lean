import ConwayTx.Proofs.Cbor.WellFormed

/-!
# Stepping over well-formed items

`skip?` takes a well-formed item off the front of any bytes, to its last byte and no further
(`skip?_append`). While it counts, what it still waits for (`Pending.Awaits`) goes down by one
with every item, however deep that item is; among levels an item stands for one head
(`Headed.steps`). So the elements of an encoded array are found where they stand
(`elementOfArray?_encode`), and numbers at its two ends are read (`firstWord?_encode`,
`lastWord?_encode`).
-/

namespace ConwayTx.Cbor

/-! ### Heads -/

/-- A well-formed item as its head and the items behind it, whatever follows. -/
inductive Headed : Bytes → Prop where
  | leaf {s : Bytes} (head : ∀ rest, token? (s ++ rest) = some (.leaf, rest)) : Headed s
  | tag {s item : Bytes} (head : ∀ rest, token? (s ++ rest) = some (.tag, item ++ rest))
      (inner : Headed item) : Headed s
  | container {s : Bytes} {items : List Bytes}
      (head : ∀ rest, token? (s ++ rest) =
        some (.container items.length, items.flatten ++ rest))
      (each : ∀ item ∈ items, Headed item) : Headed s
  | openContainer {s : Bytes} {items : List Bytes}
      (head : ∀ rest, token? (s ++ rest) = some (.openContainer, items.flatten ++ stop :: rest))
      (each : ∀ item ∈ items, Headed item) : Headed s

theorem token?_string {s rest content : Bytes} {major : Nat} (kind : major = 2 ∨ major = 3)
    (header : header? s = some (⟨major, some content.length⟩, content))
    (text : major = 3 → isText content = true) : token? (s ++ rest) = some (.leaf, rest) := by
  have here := header?_append header rest
  rcases kind with rfl | rfl
  · simp [token?, here, dropExactly?]
  · simp [token?, here, dropExactly?, text rfl]

theorem skipPieces?_append {major : Nat} {pieces : List Bytes}
    (each : ∀ piece ∈ pieces, IsString major piece) (rest : Bytes) :
    skipPieces? major (pieces.flatten ++ stop :: rest) = some rest := by
  induction pieces with
  | nil => rw [List.flatten_nil, List.nil_append, skipPieces?, if_pos rfl]
  | cons piece others ih =>
    obtain ⟨content, header, text⟩ := each piece List.mem_cons_self
    have here := header?_append header (others.flatten ++ stop :: rest)
    rw [List.flatten_cons, List.append_assoc]
    cases piece with
    | nil => cases header
    | cons b tail =>
      have more : b ≠ stop := by
        rintro rfl
        have closing : header? (stop :: tail) = some (⟨7, none⟩, tail) := rfl
        rw [closing] at header
        cases header
      rw [List.cons_append] at here ⊢
      rw [skipPieces?, if_neg more, here]
      have fits : content.length ≤ (content ++ (others.flatten ++ stop :: rest)).length := by simp
      simp only [List.take_left, List.drop_left]
      rw [if_pos ⟨trivial, fits, text⟩, ih fun piece mem => each piece (List.mem_cons_of_mem _ mem)]

theorem token?_pieces {s rest : Bytes} {major : Nat} {pieces : List Bytes}
    (kind : major = 2 ∨ major = 3)
    (header : header? s = some (⟨major, none⟩, pieces.flatten ++ [stop]))
    (each : ∀ piece ∈ pieces, IsString major piece) : token? (s ++ rest) = some (.leaf, rest) := by
  have here := header?_append header rest
  have skips := skipPieces?_append each rest
  rw [List.append_assoc, List.singleton_append] at here
  rcases kind with rfl | rfl <;> simp only [token?, here, skips, Option.map_some]

theorem flatten_flatMap_pair (entries : List (Bytes × Bytes)) :
    (entries.flatMap fun entry => [entry.1, entry.2]).flatten =
      entries.flatMap fun entry => entry.1 ++ entry.2 := by
  induction entries with
  | nil => rfl
  | cons entry rest ih => simp [List.flatMap_cons, ih]

theorem length_flatMap_pair (entries : List (Bytes × Bytes)) :
    (entries.flatMap fun entry => [entry.1, entry.2]).length = 2 * entries.length := by
  induction entries with
  | nil => rfl
  | cons entry rest ih =>
    rw [List.flatMap_cons, List.length_append, ih, List.length_cons]
    simp only [List.length_cons, List.length_nil]
    omega

theorem headed_flatMap_pair {entries : List (Bytes × Bytes)}
    (keys : ∀ entry ∈ entries, Headed entry.1) (values : ∀ entry ∈ entries, Headed entry.2) :
    ∀ item ∈ entries.flatMap fun entry => [entry.1, entry.2], Headed item := by
  intro item mem
  obtain ⟨entry, listed, inside⟩ := List.mem_flatMap.1 mem
  simp only [List.mem_cons, List.not_mem_nil, or_false] at inside
  rcases inside with rfl | rfl
  · exact keys entry listed
  · exact values entry listed

/-- Entries of a map are two items each. -/
theorem WellFormed.headed {s : Bytes} (item : WellFormed s) : Headed s := by
  induction item with
  | number kind header =>
    refine .leaf fun rest => ?_
    have here := header?_append header rest
    rcases kind with rfl | rfl <;> simp only [token?, here, List.nil_append]
  | string kind whole =>
    obtain ⟨content, header, text⟩ := whole
    exact .leaf fun rest => token?_string kind header text
  | pieces kind header each => exact .leaf fun rest => token?_pieces kind header each
  | array header _ each =>
    refine .container (fun rest => ?_) each
    simp only [token?, header?_append header rest]
  | openArray header _ each =>
    refine .openContainer (fun rest => ?_) each
    simp only [token?, header?_append header rest, List.append_assoc, List.singleton_append]
  | map header _ _ keys values =>
    refine .container (fun rest => ?_) (headed_flatMap_pair keys values)
    simp only [token?, header?_append header rest, length_flatMap_pair, flatten_flatMap_pair]
  | openMap header _ _ keys values =>
    refine .openContainer (fun rest => ?_) (headed_flatMap_pair keys values)
    simp only [token?, header?_append header rest, flatten_flatMap_pair, List.append_assoc,
      List.singleton_append]
  | tagged header _ inner =>
    refine .tag (fun rest => ?_) inner
    simp only [token?, header?_append header rest]
  | simple header _ =>
    refine .leaf fun rest => ?_
    simp only [token?, header?_append header rest, List.nil_append]

/-! ### Among levels -/

theorem skipAll?_token {p : Pending} {s rest : Bytes} {t : Token} (waits : p ≠ .counts 0 0)
    (head : token? s = some (t, rest)) : skipAll? p s = skipAll? (p.after t) rest := by
  rw [skipAll?, if_neg waits, head]

theorem token?_stop (rest : Bytes) : token? (stop :: rest) = some (.stop, rest) := rfl

theorem skipAll?_level {inner : List Level} {s rest : Bytes} {t : Token}
    (head : token? s = some (t, rest)) :
    skipAll? (.levels inner) s = skipAll? ((Pending.levels inner).after t) rest :=
  skipAll?_token (by simp) head

/-- Among levels the bytes lead on as one head does. -/
def Steps (s : Bytes) : Prop :=
  ∀ inner rest, skipAll? (.levels inner) (s ++ rest) = skipAll? (Pending.advance inner) rest

theorem skipAll?_items {items : List Bytes} (each : ∀ item ∈ items, Steps item)
    (inner : List Level) (rest : Bytes) :
    skipAll? (Pending.advance (.items items.length :: inner)) (items.flatten ++ rest) =
      skipAll? (Pending.advance inner) rest := by
  induction items with
  | nil => rfl
  | cons item others ih =>
    rw [List.flatten_cons, List.append_assoc]
    have first := each item List.mem_cons_self (.items others.length :: inner)
      (others.flatten ++ rest)
    exact first.trans (ih fun item mem => each item (List.mem_cons_of_mem _ mem))

theorem skipAll?_untilStop {items : List Bytes} (each : ∀ item ∈ items, Steps item)
    (inner : List Level) (rest : Bytes) :
    skipAll? (.levels (.untilStop :: inner)) (items.flatten ++ stop :: rest) =
      skipAll? (Pending.advance inner) rest := by
  induction items with
  | nil => exact skipAll?_level (token?_stop rest)
  | cons item others ih =>
    rw [List.flatten_cons, List.append_assoc]
    have first := each item List.mem_cons_self (.untilStop :: inner)
      (others.flatten ++ stop :: rest)
    exact first.trans (ih fun item mem => each item (List.mem_cons_of_mem _ mem))

theorem Headed.steps {s : Bytes} (item : Headed s) : Steps s := by
  induction item with
  | leaf head =>
    intro inner rest
    exact skipAll?_level (head rest)
  | tag head _ ih =>
    intro inner rest
    exact (skipAll?_level (head rest)).trans (ih inner rest)
  | container head _ ih =>
    intro inner rest
    exact (skipAll?_level (head rest)).trans (skipAll?_items ih inner rest)
  | openContainer head _ ih =>
    intro inner rest
    exact (skipAll?_level (head rest)).trans (skipAll?_untilStop ih inner rest)

/-! ### While counting -/

/-- So many items and then so many stop bytes are still to come. With a stop byte to come, the items
before it need not be counted to the last: fewer than there are will do. -/
inductive Pending.Awaits (items stops : Nat) : Pending → Prop where
  | counts {n : Nat} (exact : stops = 0 → n = items) (le : n ≤ items) :
      Awaits items stops (.counts n stops)
  | levels {n : Nat} (exact : stops = 0 → n = items) (le : n ≤ items) :
      Awaits items stops (advance (.items n :: List.replicate stops .untilStop))

/-- Takes one awaited item. -/
def Counts (s : Bytes) : Prop :=
  ∀ {p : Pending} {items stops : Nat}, p.Awaits items stops → 0 < items + stops → ∀ rest,
    ∃ q, skipAll? p (s ++ rest) = skipAll? q rest ∧ q.Awaits (items - 1) stops

theorem counts_flatten {items : List Bytes} (each : ∀ item ∈ items, Counts item) {p : Pending}
    {more stops : Nat} (awaits : p.Awaits (more + items.length) stops) (rest : Bytes) :
    ∃ q, skipAll? p (items.flatten ++ rest) = skipAll? q rest ∧ q.Awaits more stops := by
  induction items generalizing p with
  | nil => exact ⟨p, rfl, awaits⟩
  | cons item others ih =>
    rw [List.flatten_cons, List.append_assoc]
    obtain ⟨q, first, awaits⟩ := each item List.mem_cons_self awaits
      (by rw [List.length_cons]; omega) (others.flatten ++ rest)
    rw [first]
    exact ih (fun item mem => each item (List.mem_cons_of_mem _ mem)) awaits

/-- A stop byte that is awaited; items further out need not be counted while others are open. -/
theorem awaits_stop {p : Pending} {items stops : Nat} (awaits : p.Awaits 0 (stops + 1))
    (whole : stops = 0 → items = 0) (rest : Bytes) :
    ∃ q, skipAll? p (stop :: rest) = skipAll? q rest ∧ q.Awaits items stops := by
  rcases awaits with ⟨_, le⟩ | ⟨_, le⟩
  · obtain rfl := Nat.le_zero.1 le
    exact ⟨_, skipAll?_token (by simp) (token?_stop rest), .counts (by omega) (by omega)⟩
  · obtain rfl := Nat.le_zero.1 le
    exact ⟨_, skipAll?_level (token?_stop rest), @Pending.Awaits.levels _ _ 0 (by omega) (by omega)⟩

/-- Only where items are counted does it matter what the item is. -/
theorem counts_of_steps {s : Bytes} (steps : Steps s)
    (counting : ∀ {n items stops : Nat}, (stops = 0 → n = items) → n ≤ items → 0 < items + stops →
      Pending.counts n stops ≠ .counts 0 0 → ∀ rest,
        ∃ q, skipAll? (.counts n stops) (s ++ rest) = skipAll? q rest ∧
          q.Awaits (items - 1) stops) : Counts s := by
  intro p items stops awaits waits rest
  cases awaits with
  | @counts n whole le =>
    refine counting whole le waits ?_ rest
    rintro ⟨⟩
    omega
  | @levels n whole le =>
    cases n with
    | zero =>
      cases stops with
      | zero => omega
      | succ stops => exact ⟨_, steps _ rest, @Pending.Awaits.levels _ _ 0 (by omega) (by omega)⟩
    | succ n => exact ⟨_, steps _ rest, .levels (by omega) (by omega)⟩

theorem Headed.counts {s : Bytes} (item : Headed s) : Counts s := by
  induction item with
  | leaf head =>
    refine counts_of_steps (Headed.leaf head).steps ?_
    intro n items stops whole le waits waiting rest
    exact ⟨_, skipAll?_token waiting (head rest), .counts (by omega) (by omega)⟩
  | tag head inner ih =>
    refine counts_of_steps (Headed.tag head inner).steps ?_
    intro n items stops whole le waits waiting rest
    obtain ⟨q, first, awaits⟩ := ih (.counts whole le) waits rest
    exact ⟨q, (skipAll?_token waiting (head rest)).trans first, awaits⟩
  | @container s items head each ih =>
    refine counts_of_steps (Headed.container head each).steps ?_
    intro n count stops whole le waits waiting rest
    have awaits : (Pending.counts (n + items.length - 1) stops).Awaits
        (count - 1 + items.length) stops := .counts (by omega) (by omega)
    obtain ⟨q, all, awaits⟩ := counts_flatten ih awaits rest
    exact ⟨q, (skipAll?_token waiting (head rest)).trans all, awaits⟩
  | @openContainer s items head each ih =>
    refine counts_of_steps (Headed.openContainer head each).steps ?_
    intro n count stops whole le waits waiting rest
    rw [skipAll?_token waiting (head rest), Pending.after]
    split
    · rename_i few
      obtain none : n - 1 = 0 := by omega
      have awaits : (Pending.counts (n - 1) (stops + 1)).Awaits (0 + items.length) (stops + 1) :=
        .counts (by omega) (by omega)
      obtain ⟨q, all, awaits⟩ := counts_flatten ih awaits (stop :: rest)
      rw [all]
      exact awaits_stop awaits (by omega) rest
    · exact ⟨_, skipAll?_untilStop (fun item mem => (each item mem).steps) _ rest,
        .levels (by omega) (by omega)⟩

/-- A well-formed item is stepped over, and nothing behind it. -/
theorem skip?_append {item : Bytes} (whole : WellFormed item) (rest : Bytes) :
    skip? (item ++ rest) = some rest := by
  have one : (Pending.counts 1 0).Awaits 1 0 := .counts (by omega) (by omega)
  obtain ⟨q, all, none⟩ := whole.headed.counts one (by omega) rest
  have done : q = .counts 0 0 := by
    rcases none with ⟨whole, le⟩ | ⟨whole, le⟩
    · rw [whole rfl]
    · rw [whole rfl]
      rfl
  rw [skip?, all, done, skipAll?, if_pos rfl]

theorem firstOfArray?_append {s first rest : Bytes} {number : Option Nat}
    (header : header? s = some (⟨4, number⟩, first ++ rest)) (whole : WellFormed first) :
    firstOfArray? s = some first := by
  simp only [firstOfArray?, header, skip?_append whole rest, Option.map_some]
  simp

/-! ### Elements -/

/-- The bytes of the item that so many others stand before. -/
def itemAt? : Nat → Bytes → Option Bytes
  | 0, s => (skip? s).map fun rest => s.take (s.length - rest.length)
  | i + 1, s => (skip? s).bind (itemAt? i)

/-- The bytes of one element of an array that states its length. -/
def elementOfArray? (i : Nat) (s : Bytes) : Option Bytes :=
  match header? s with
  | some (⟨4, some count⟩, items) => if i < count then itemAt? i items else none
  | _ => none

theorem itemAt?_append {items : List Bytes} (each : ∀ item ∈ items, WellFormed item) {i : Nat}
    {item : Bytes} (there : items[i]? = some item) (rest : Bytes) :
    itemAt? i (items.flatten ++ rest) = some item := by
  induction items generalizing i with
  | nil => cases there
  | cons first others ih =>
    have skips := skip?_append (each first List.mem_cons_self) (others.flatten ++ rest)
    rw [List.flatten_cons, List.append_assoc]
    cases i with
    | zero =>
      cases there
      rw [itemAt?, skips]
      simp
    | succ i =>
      rw [itemAt?, skips]
      exact ih (fun item mem => each item (List.mem_cons_of_mem _ mem)) there

/-- An element is read from an encoded array as it is written by itself. -/
theorem elementOfArray?_encode {items : List Cbor} (short : (array items).length < UInt64.size)
    {i : Nat} {item : Cbor} (there : items[i]? = some item) :
    elementOfArray? i (array items).encode = some item.encode := by
  have header := header?_encode short []
  rw [List.append_nil, List.append_nil, major, number?, content, encodeAll_eq_flatten] at header
  have each : ∀ element ∈ items.map encode, WellFormed element := by
    refine List.forall_mem_map.2 (wellFormed_encodeAll items ?_)
    exact (content_le (array items)).trans_lt short
  have found := itemAt?_append each (by rw [List.getElem?_map, there]; rfl) []
  rw [List.append_nil] at found
  simp only [elementOfArray?, header]
  rw [if_pos (List.getElem?_eq_some_iff.1 there).1]
  exact found

/-! ### Numbers at the ends of an array -/

/-- The number of an encoded unsigned integer. -/
def word? (s : Bytes) : Option ℕ :=
  match header? s with
  | some (⟨0, some n⟩, []) => some n
  | _ => none

/-- The number in front of an array. -/
def firstWord? (s : Bytes) : Option ℕ := (firstOfArray? s).bind word?

/-- The number at the end of an array. -/
def lastWord? (s : Bytes) : Option ℕ :=
  match header? s with
  | some (⟨4, some (n + 1)⟩, _) => (elementOfArray? n s).bind word?
  | _ => none

theorem length_unsigned_lt (n : UInt64) : (unsigned n).length < UInt64.size := by
  rw [length_unsigned]
  exact (headLength_le _).trans_lt (by decide)

theorem word?_encode (n : UInt64) : word? (unsigned n).encode = some n.toNat := by
  have header := header?_encode (length_unsigned_lt n) []
  rw [List.append_nil, List.append_nil] at header
  simp only [word?, header, major, number?, content]

theorem firstWord?_encode {n : UInt64} {rest : List Cbor} (few : rest.length + 1 < UInt64.size) :
    firstWord? (array (unsigned n :: rest)).encode = some n.toNat := by
  have header : header? (array (unsigned n :: rest)).encode =
      some (⟨4, some (rest.length + 1)⟩, (unsigned n).encode ++ encodeAll rest) := by
    rw [encode_eq]
    exact header?_opening (major_lt _) (by rintro _ ⟨⟩; exact few) _
  rw [firstWord?, firstOfArray?_append header (wellFormed_encode _ (length_unsigned_lt n)),
    Option.bind_some, word?_encode]

theorem lastWord?_encode {front : List Cbor} {n : UInt64}
    (short : (array (front ++ [unsigned n])).length < UInt64.size) :
    lastWord? (array (front ++ [unsigned n])).encode = some n.toNat := by
  have header := header?_encode short []
  have there : (front ++ [unsigned n])[front.length]? = some (unsigned n) := by simp
  rw [List.append_nil, List.append_nil, major, number?, List.length_append] at header
  simp only [lastWord?, header, List.length_singleton, elementOfArray?_encode short there,
    Option.bind_some, word?_encode]

end ConwayTx.Cbor
