import ConwayTx.Proofs.Cbor.Parts
import ConwayTx.Proofs.Value.Canonical

/-!
# Values and mints read back

What is written of an asset map is the map without the entries that are left out (`kept_eq`), and
such a map is known by its quantities (`Canonical.eq_of_quantity`). So written values are equal where
their positive quantities are (`Value.toCbor_eq_iff`), and written mints where all quantities are.
-/

namespace ConwayTx

open Outcome

namespace MultiAsset

/-! ### Canonical maps -/

/-- An entry of a canonical map is a quantity other than zero. -/
theorem Canonical.find?_bind {m : MultiAsset} (canonical : m.Canonical) (p : PolicyId)
    (n : AssetName) :
    (m.find? p).bind (·.find? n) =
      if m.quantity p n = 0 then none else some (m.quantity p n) := by
  unfold quantity
  cases found : (m.find? p).bind (·.find? n) with
  | none => rfl
  | some q =>
    obtain ⟨names, listed, held⟩ := Option.bind_eq_some_iff.1 found
    have nonzero : q ≠ 0 := (canonical _ (SortedMap.find?_eq_some_iff.1 listed)).2 _
      (SortedMap.find?_eq_some_iff.1 held)
    rw [Option.getD_some, if_neg nonzero]

theorem Canonical.exists_quantity {m : MultiAsset} (canonical : m.Canonical) {p : PolicyId}
    {names : AssetBundle} (listed : m.find? p = some names) : ∃ n, m.quantity p n ≠ 0 := by
  obtain ⟨nonempty, nonzero⟩ := canonical _ (SortedMap.find?_eq_some_iff.1 listed)
  cases entries : names.entries with
  | nil => simp [SortedMap.isEmpty, entries] at nonempty
  | cons e rest =>
    have mem : e ∈ names.entries := by
      rw [entries]
      exact .head _
    refine ⟨e.1, ?_⟩
    have found : names.find? e.1 = some e.2 := SortedMap.find?_eq_some_iff.2 mem
    rw [quantity, listed, Option.bind_some, found]
    exact nonzero e mem

theorem Canonical.eq_of_quantity {m m' : MultiAsset} (canonical : m.Canonical)
    (canonical' : m'.Canonical) (same : ∀ p n, m.quantity p n = m'.quantity p n) : m = m' := by
  apply SortedMap.eq_of_find?
  intro p
  cases found : m.find? p with
  | none =>
    cases found' : m'.find? p with
    | none => rfl
    | some names' =>
      obtain ⟨n, nonzero⟩ := canonical'.exists_quantity found'
      rw [← same, quantity, found] at nonzero
      exact absurd rfl nonzero
  | some names =>
    cases found' : m'.find? p with
    | none =>
      obtain ⟨n, nonzero⟩ := canonical.exists_quantity found
      rw [same, quantity, found'] at nonzero
      exact absurd rfl nonzero
    | some names' =>
      congr 1
      apply SortedMap.eq_of_find?
      intro n
      have left := canonical.find?_bind p n
      have right := canonical'.find?_bind p n
      rw [found, Option.bind_some] at left
      rw [found', Option.bind_some] at right
      rw [left, right, same]

/-! ### What is kept -/

/-- Only the quantities that are kept, without empty policies. -/
def restrict (keep : Int → Bool) (m : MultiAsset) : MultiAsset :=
  (m.mapValues (·.filter fun _ q => keep q)).filter fun _ names => !names.isEmpty

variable {keep : Int → Bool}

theorem kept_eq (m : MultiAsset) :
    m.kept keep = (m.restrict keep).entries.map fun e => (e.1, e.2.entries) := by
  have parts : (m.entries.map fun e => (e.1, e.2.entries.filter fun held => keep held.2)) =
      (SortedMap.mapValues (·.filter fun _ q => keep q) m).entries.map
        fun e => (e.1, e.2.entries) := by
    unfold SortedMap.mapValues
    rw [List.map_map]
    rfl
  show (m.entries.map fun e => (e.1, e.2.entries.filter fun held => keep held.2)).filter _ = _
  rw [parts, List.filter_map]
  rfl

theorem kept_inj {m m' : MultiAsset} (same : m.kept keep = m'.kept keep) :
    m.restrict keep = m'.restrict keep := by
  rw [kept_eq, kept_eq] at same
  refine SortedMap.eq_of_map_entries ?_ same
  rintro ⟨p, names⟩ ⟨p', names'⟩ pair
  obtain ⟨policies, entries⟩ := Prod.mk.inj pair
  exact Prod.ext policies (SortedMap.ext entries)

theorem canonical_restrict (zero : keep 0 = false) (m : MultiAsset) :
    (m.restrict keep).Canonical := by
  intro e mem
  obtain ⟨listed, nonempty⟩ := List.mem_filter.1 mem
  obtain ⟨original, _, rfl⟩ := List.mem_map.1 listed
  refine ⟨by simpa using nonempty, fun held inside empty => ?_⟩
  have kept : keep held.2 = true := (List.mem_filter.1 inside).2
  rw [empty, zero] at kept
  cases kept

variable {shown : Int → Int}

theorem quantity_restrict (each : ∀ q, (if keep q then q else 0) = shown q) (m : MultiAsset)
    (p : PolicyId) (n : AssetName) : (m.restrict keep).quantity p n = shown (m.quantity p n) := by
  have zero : shown 0 = 0 := by simp [← each]
  have kept (names : AssetBundle) (n : AssetName) :
      ((names.filter fun _ q => keep q).find? n).getD 0 = shown ((names.find? n).getD 0) := by
    rw [find?_keep, each]
  refine Eq.trans ?_ (quantity_mapValues m zero kept p n)
  simp only [quantity, restrict, SortedMap.find?_filter]
  cases (m.mapValues fun names => names.filter fun _ q => keep q).find? p with
  | none => simp
  | some names =>
    cases empty : names.isEmpty with
    | false => simp [Option.filter, empty]
    | true => simp [Option.filter, empty, SortedMap.find?_eq_none_of_isEmpty empty n]

/-- What is kept of two maps is the same where their quantities are, as far as they are kept. -/
theorem kept_eq_iff (zero : keep 0 = false) (each : ∀ q, (if keep q then q else 0) = shown q)
    {m m' : MultiAsset} :
    m.kept keep = m'.kept keep ↔ ∀ p n, shown (m.quantity p n) = shown (m'.quantity p n) := by
  simp only [← quantity_restrict each]
  constructor
  · intro same p n
    rw [kept_inj same]
  · intro same
    rw [kept_eq, kept_eq,
      (canonical_restrict zero m).eq_of_quantity (canonical_restrict zero m') same]

/-! ### On the wire -/

variable {write : Int → Except EncodeError Cbor}

theorem quantitiesToCbor_eq_iff {xs ys : List (AssetName × Int)} {c d : Cbor}
    (left : quantitiesToCbor write xs = .ok c) (right : quantitiesToCbor write ys = .ok d)
    (inj : ∀ x ∈ xs, ∀ y ∈ ys, ∀ u, write x.2 = .ok u → write y.2 = .ok u → x.2 = y.2) :
    c = d ↔ xs = ys := by
  obtain ⟨us, left, written⟩ := bind_ok left
  obtain ⟨vs, right, written'⟩ := bind_ok right
  rw [← pure_ok written, ← pure_ok written', Cbor.map.injEq]
  refine mapM_inj_iff left right ?_
  rintro ⟨n, q⟩ hx ⟨n', q'⟩ hy u _ v one one'
  obtain ⟨item, quantity, one⟩ := bind_ok one
  obtain ⟨item', quantity', one'⟩ := bind_ok one'
  rw [← pure_ok one, ← pure_ok one']
  constructor
  · rintro same
    obtain ⟨names, items⟩ := Prod.mk.inj same
    rw [← items] at quantity'
    have names : n = n' := AssetName.ext (Cbor.bytes.inj names)
    have quantities : q = q' := inj _ hx _ hy item quantity quantity'
    rw [names, quantities]
  · rintro ⟨rfl, rfl⟩
    rw [Except.ok.inj (quantity.symm.trans quantity')]

theorem keptToCbor_eq_iff {xs ys : List (PolicyId × List (AssetName × Int))} {c d : Cbor}
    (left : keptToCbor write xs = .ok c) (right : keptToCbor write ys = .ok d)
    (inj : ∀ x ∈ xs, ∀ y ∈ ys, ∀ held ∈ x.2, ∀ held' ∈ y.2, ∀ u,
      write held.2 = .ok u → write held'.2 = .ok u → held.2 = held'.2) :
    c = d ↔ xs = ys := by
  obtain ⟨us, left, written⟩ := bind_ok left
  obtain ⟨vs, right, written'⟩ := bind_ok right
  rw [← pure_ok written, ← pure_ok written', Cbor.map.injEq]
  refine mapM_inj_iff left right ?_
  rintro ⟨p, names⟩ hx ⟨p', names'⟩ hy u _ v one one'
  obtain ⟨item, quantities, one⟩ := bind_ok one
  obtain ⟨item', quantities', one'⟩ := bind_ok one'
  have items := quantitiesToCbor_eq_iff quantities quantities' (inj _ hx _ hy)
  have policies : Cbor.bytes p.bytes = Cbor.bytes p'.bytes ↔ p = p' :=
    ⟨Cbor.digest_inj, fun same => by rw [same]⟩
  rw [← pure_ok one, ← pure_ok one', Prod.mk.injEq, Prod.mk.injEq, items, policies]

theorem keep_of_mem_kept {m : MultiAsset} {x : PolicyId × List (AssetName × Int)}
    (mem : x ∈ m.kept keep) {held : AssetName × Int} (inside : held ∈ x.2) : keep held.2 = true := by
  obtain ⟨listed, _⟩ := List.mem_filter.1 mem
  obtain ⟨original, _, rfl⟩ := List.mem_map.1 listed
  exact (List.mem_filter.1 inside).2

theorem heldToCbor_inj {q q' : Int} (above : 0 < q) (above' : 0 < q') {c : Cbor}
    (left : heldToCbor q = .ok c) (right : heldToCbor q' = .ok c) : q = q' := by
  unfold heldToCbor at left right
  split at left
  · rename_i w word
    split at right
    · rename_i w' word'
      have words : w = w' := Cbor.unsigned.inj (Except.ok.inj (left.trans right.symm))
      have number := Amount.ofNat?_eq_some_iff.1 word
      have number' := Amount.ofNat?_eq_some_iff.1 word'
      rw [words] at number
      omega
    · cases right
  · cases left

theorem toInt_signed? {q : Int} {w : Int64} (word : Amount.signed? q = some w) : w.toInt = q := by
  unfold Amount.signed? at word
  split at word
  · rename_i bounds
    rw [← Option.some.inj word]
    exact Int64.toInt_ofInt_of_le bounds.1 (Int.lt_add_one_of_le bounds.2)
  · cases word

theorem mintedToCbor_inj {q q' : Int} {c : Cbor} (left : mintedToCbor q = .ok c)
    (right : mintedToCbor q' = .ok c) : q = q' := by
  unfold mintedToCbor at left right
  split at left
  · rename_i w word
    split at right
    · rename_i w' word'
      have words : w = w' := Cbor.ofInt64_inj (Except.ok.inj (left.trans right.symm))
      rw [← toInt_signed? word, words, toInt_signed? word']
    · cases right
  · cases left

theorem toCbor_eq_iff {m m' : MultiAsset} {c d : Cbor} (left : m.toCbor = .ok c)
    (right : m'.toCbor = .ok d) :
    c = d ↔ ∀ p n, max 0 (m.quantity p n) = max 0 (m'.quantity p n) := by
  have positive (q : Int) : (if decide (0 < q) = true then q else 0) = max 0 q := by
    by_cases above : 0 < q
    · simp [above, above.le]
    · simp [above, Int.not_lt.1 above]
  refine (keptToCbor_eq_iff left right ?_).trans (kept_eq_iff rfl positive)
  intro x hx y hy held inside held' inside' u one one'
  have above : 0 < held.2 := by simpa using keep_of_mem_kept hx inside
  have above' : 0 < held'.2 := by simpa using keep_of_mem_kept hy inside'
  exact heldToCbor_inj above above' one one'

theorem mintToCbor_eq_iff {m m' : MultiAsset} {c d : Cbor} (left : m.mintToCbor = .ok c)
    (right : m'.mintToCbor = .ok d) :
    c = d ↔ ∀ p n, m.quantity p n = m'.quantity p n := by
  have whole (q : Int) : (if decide (q ≠ 0) = true then q else 0) = q := by
    by_cases zero : q = 0 <;> simp [zero]
  refine (keptToCbor_eq_iff left right ?_).trans (kept_eq_iff rfl whole)
  intro x _ y _ held _ held' _ u one one'
  exact mintedToCbor_inj one one'

end MultiAsset

namespace Value

theorem hasAssets_iff {v : Value} : v.hasAssets = true ↔ ∃ p n, 0 < v.quantity p n := by
  unfold hasAssets
  rw [Bool.not_eq_true', List.isEmpty_eq_false_iff_exists_mem]
  constructor
  · rintro ⟨⟨p, n, q⟩, mem⟩
    obtain ⟨above, same⟩ := mem_positive.1 mem
    exact ⟨p, n, same ▸ above⟩
  · rintro ⟨p, n, above⟩
    exact ⟨_, mem_positive.2 ⟨above, rfl⟩⟩

theorem toCbor_ok {v : Value} {c : Cbor} (h : v.toCbor = .ok c) :
    (v.hasAssets = true ∧ ∃ assets, v.bundle.toCbor = .ok assets ∧
      c = .array [.unsigned v.coin, assets]) ∨
    (v.hasAssets = false ∧ c = .unsigned v.coin) := by
  unfold toCbor at h
  split at h
  · rename_i some
    obtain ⟨assets, written, h⟩ := bind_ok h
    exact .inl ⟨some, assets, written, (pure_ok h).symm⟩
  · rename_i none
    cases h
    exact .inr ⟨Bool.eq_false_of_not_eq_true none, rfl⟩

theorem toCbor_eq_iff {a b : Value} {c d : Cbor} (left : a.toCbor = .ok c)
    (right : b.toCbor = .ok d) :
    c = d ↔ a.coin = b.coin ∧ ∀ p n, max 0 (a.quantity p n) = max 0 (b.quantity p n) := by
  -- Equal positive quantities make values alike in whether they hold assets.
  have alike (same : ∀ p n, max 0 (a.quantity p n) = max 0 (b.quantity p n)) :
      a.hasAssets = b.hasAssets := by
    rw [Bool.eq_iff_iff, hasAssets_iff, hasAssets_iff]
    refine exists_congr fun p => exists_congr fun n => ?_
    have := same p n
    omega
  rcases toCbor_ok left with ⟨has, assets, written, rfl⟩ | ⟨none, rfl⟩
  · rcases toCbor_ok right with ⟨_, assets', written', rfl⟩ | ⟨none', rfl⟩
    · have quantities := MultiAsset.toCbor_eq_iff written written'
      simp only [Cbor.array.injEq, List.cons.injEq, Cbor.unsigned.injEq, and_true, quantities]
      rfl
    · refine iff_of_false (fun same => by cases same) ?_
      rintro ⟨_, same⟩
      rw [alike same, none'] at has
      cases has
  · rcases toCbor_ok right with ⟨has', assets', written', rfl⟩ | ⟨none', rfl⟩
    · refine iff_of_false (fun same => by cases same) ?_
      rintro ⟨_, same⟩
      rw [← alike same, none] at has'
      cases has'
    · have nothing (v : Value) (empty : v.hasAssets = false) (p : PolicyId) (n : AssetName) :
          max 0 (v.quantity p n) = 0 := by
        by_contra above
        have some := hasAssets_iff.2 ⟨p, n, (by omega : 0 < v.quantity p n)⟩
        rw [empty] at some
        cases some
      rw [Cbor.unsigned.injEq]
      refine (and_iff_left ?_).symm
      intro p n
      rw [nothing a none, nothing b none']

end Value

end ConwayTx
