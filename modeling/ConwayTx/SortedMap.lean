/-!
# Sorted maps

Finite maps held as entries in strictly increasing key order, so that equal maps have equal
entries. Main statements: `find?_insert`, `find?_eq_some_iff`.
-/

namespace ConwayTx

variable {κ α β : Type}

@[ext]
structure SortedMap (κ α : Type) [Ord κ] where
  entries : List (κ × α)
  increasing : entries.Pairwise fun a b => compare a.1 b.1 = .lt

abbrev SortedSet (κ : Type) [Ord κ] := SortedMap κ Unit

namespace SortedMap

variable [Ord κ]

instance [DecidableEq κ] [DecidableEq α] : DecidableEq (SortedMap κ α) := fun a b =>
  if h : a.entries = b.entries then isTrue (SortedMap.ext h)
  else isFalse fun same => h (congrArg entries same)

instance : EmptyCollection (SortedMap κ α) := ⟨⟨[], .nil⟩⟩
instance : Inhabited (SortedMap κ α) := ⟨∅⟩

def findIn (k : κ) : List (κ × α) → Option α
  | [] => none
  | (k', v) :: rest => if compare k k' = .eq then some v else findIn k rest

def find? (m : SortedMap κ α) (k : κ) : Option α := findIn k m.entries

def contains (m : SortedMap κ α) (k : κ) : Bool := (m.find? k).isSome

def keys (m : SortedMap κ α) : List κ := m.entries.map (·.1)
def values (m : SortedMap κ α) : List α := m.entries.map (·.2)
def isEmpty (m : SortedMap κ α) : Bool := m.entries.isEmpty
def size (m : SortedMap κ α) : Nat := m.entries.length

/-- An equal key is replaced. -/
def insertIn (k : κ) (v : α) : List (κ × α) → List (κ × α)
  | [] => [(k, v)]
  | (k', v') :: rest =>
    match compare k k' with
    | .lt => (k, v) :: (k', v') :: rest
    | .eq => (k, v) :: rest
    | .gt => (k', v') :: insertIn k v rest

theorem mem_insertIn {k : κ} {v : α} {l : List (κ × α)} {e : κ × α} (h : e ∈ insertIn k v l) :
    e = (k, v) ∨ e ∈ l := by
  induction l with
  | nil => simpa [insertIn] using h
  | cons hd tl ih =>
    rw [insertIn] at h
    split at h
    · simpa using h
    · simp only [List.mem_cons] at h ⊢; exact h.imp_right .inr
    · simp only [List.mem_cons] at h ⊢
      rcases h with h | h
      · exact .inr (.inl h)
      · exact (ih h).imp_right .inr

theorem increasing_insertIn [Std.TransOrd κ] (k : κ) (v : α) {l : List (κ × α)}
    (h : l.Pairwise fun a b => compare a.1 b.1 = .lt) :
    (insertIn k v l).Pairwise fun a b => compare a.1 b.1 = .lt := by
  induction l with
  | nil => simp [insertIn]
  | cons hd tl ih =>
    obtain ⟨k', v'⟩ := hd
    obtain ⟨first, rest⟩ := List.pairwise_cons.1 h
    rw [insertIn]
    split
    · rename_i before
      refine List.pairwise_cons.2 ⟨fun e he => ?_, h⟩
      rcases List.mem_cons.1 he with rfl | he
      · exact before
      · exact Std.TransCmp.lt_trans before (first e he)
    · rename_i same
      refine List.pairwise_cons.2 ⟨fun e he => ?_, rest⟩
      exact Std.TransCmp.lt_of_eq_of_lt same (first e he)
    · rename_i after
      refine List.pairwise_cons.2 ⟨fun e he => ?_, ih rest⟩
      rcases mem_insertIn he with rfl | he
      · exact Std.OrientedCmp.gt_iff_lt.1 after
      · exact first e he

def insert [Std.TransOrd κ] (m : SortedMap κ α) (k : κ) (v : α) : SortedMap κ α :=
  ⟨insertIn k v m.entries, increasing_insertIn k v m.increasing⟩

/-- Of entries with one key the last one stays. -/
def insertMany [Std.TransOrd κ] (m : SortedMap κ α) (entries : List (κ × α)) : SortedMap κ α :=
  entries.foldl (fun m e => m.insert e.1 e.2) m

def ofList [Std.TransOrd κ] (entries : List (κ × α)) : SortedMap κ α := insertMany ∅ entries

def mapValues (f : α → β) (m : SortedMap κ α) : SortedMap κ β :=
  ⟨m.entries.map fun e => (e.1, f e.2), by
    rw [List.pairwise_map]; exact m.increasing⟩

def filter (p : κ → α → Bool) (m : SortedMap κ α) : SortedMap κ α :=
  ⟨m.entries.filter fun e => p e.1 e.2, m.increasing.filter _⟩

/-! ### Sets -/

def addKey [Std.TransOrd κ] (s : SortedSet κ) (k : κ) : SortedSet κ := s.insert k ()

def addKeys [Std.TransOrd κ] (s : SortedSet κ) (ks : List κ) : SortedSet κ := ks.foldl addKey s

def ofKeys [Std.TransOrd κ] (ks : List κ) : SortedSet κ := addKeys ∅ ks

/-! ### Lookup -/

theorem findIn_insertIn [DecidableEq κ] [Std.TransOrd κ] [Std.LawfulEqOrd κ] (k k' : κ) (v : α)
    (l : List (κ × α)) :
    findIn k' (insertIn k v l) = if k' = k then some v else findIn k' l := by
  induction l with
  | nil => simp [insertIn, findIn, Std.LawfulEqCmp.compare_eq_iff_eq]
  | cons hd tl ih =>
    obtain ⟨j, w⟩ := hd
    rw [insertIn]
    split <;> rename_i order
    · simp [findIn, Std.LawfulEqCmp.compare_eq_iff_eq]
    · have := Std.LawfulEqCmp.compare_eq_iff_eq.1 order
      subst this
      by_cases h : k' = k <;> simp [findIn, Std.LawfulEqCmp.compare_eq_iff_eq, h]
    · have apart : k ≠ j := by
        rintro rfl; simp at order
      by_cases h : k' = j
      · subst h; simp [findIn, Ne.symm apart]
      · simp [findIn, Std.LawfulEqCmp.compare_eq_iff_eq, h, ih]

theorem find?_insert [DecidableEq κ] [Std.TransOrd κ] [Std.LawfulEqOrd κ] (m : SortedMap κ α)
    (k k' : κ) (v : α) :
    (m.insert k v).find? k' = if k' = k then some v else m.find? k' :=
  findIn_insertIn k k' v m.entries

@[simp] theorem find?_empty (k : κ) : (∅ : SortedMap κ α).find? k = none := rfl

theorem find?_eq_some_iff [Std.TransOrd κ] [Std.LawfulEqOrd κ] {m : SortedMap κ α} {k : κ} {v : α} :
    m.find? k = some v ↔ (k, v) ∈ m.entries := by
  obtain ⟨l, increasing⟩ := m
  show findIn k l = some v ↔ (k, v) ∈ l
  induction l with
  | nil => simp [findIn]
  | cons hd tl ih =>
    obtain ⟨j, w⟩ := hd
    obtain ⟨first, rest⟩ := List.pairwise_cons.1 increasing
    rw [findIn]
    split <;> rename_i order
    · have := Std.LawfulEqCmp.compare_eq_iff_eq.1 order
      subst this
      have absent : (k, v) ∉ tl := fun mem => by
        have := first _ mem
        simp at this
      simp [absent, eq_comm]
    · have apart : k ≠ j := fun same => by subst same; simp at order
      simp [ih rest, apart]

end SortedMap

end ConwayTx
