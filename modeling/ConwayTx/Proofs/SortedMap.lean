import ConwayTx.SortedMap
import Mathlib

/-!
# Sorted maps: lookup, keys and sums

Lookup commutes with `filter` and `mapValues` and decides the whole map (`eq_of_find?`), insertion of
fresh keys only adds entries (`entries_insertMany_perm`), and a sum that looks at one key sees one
entry (`sum_entries_at`).
-/

namespace ConwayTx.SortedMap

variable {κ α β : Type} [Ord κ]

/-! ### Lookup -/

theorem find?_filter [Std.TransOrd κ] [Std.LawfulEqOrd κ] (m : SortedMap κ α) (p : κ → α → Bool)
    (k : κ) : (m.filter p).find? k = (m.find? k).filter (p k) := by
  apply Option.ext
  intro v
  simp [find?_eq_some_iff, filter, Option.filter_eq_some_iff]

theorem find?_mapValues [Std.TransOrd κ] [Std.LawfulEqOrd κ] (m : SortedMap κ α) (f : α → β)
    (k : κ) : (m.mapValues f).find? k = (m.find? k).map f := by
  apply Option.ext
  intro v
  simp [find?_eq_some_iff, mapValues]

theorem find?_eq_none_of_isEmpty {m : SortedMap κ α} (empty : m.isEmpty = true) (k : κ) :
    m.find? k = none := by
  have none : m.entries = [] := List.isEmpty_iff.1 empty
  simp [find?, none, findIn]

/-- The sum over all entries of a function that is zero for every key but one. -/
theorem sum_entries_at [Std.TransOrd κ] [Std.LawfulEqOrd κ] [DecidableEq κ] (m : SortedMap κ α)
    (k : κ) (f : α → Int) :
    (m.entries.map fun e => if e.1 = k then f e.2 else 0).sum = ((m.find? k).map f).getD 0 := by
  obtain ⟨l, increasing⟩ := m
  show (l.map fun e => if e.1 = k then f e.2 else 0).sum = ((findIn k l).map f).getD 0
  induction l with
  | nil => simp [findIn]
  | cons hd tl ih =>
    obtain ⟨j, w⟩ := hd
    obtain ⟨first, rest⟩ := List.pairwise_cons.1 increasing
    rw [List.map_cons, List.sum_cons, ih rest, findIn]
    by_cases same : j = k
    · subst same
      -- The tail starts behind `j`, so it has no entry for it.
      have absent : findIn j tl = none := by
        cases found : findIn j tl with
        | none => rfl
        | some v =>
          have held := (find?_eq_some_iff (m := ⟨tl, rest⟩)).1 found
          exact absurd (first _ held) (by simp)
      simp [absent]
    · have apart : compare k j ≠ .eq := fun eq => same (Std.LawfulEqCmp.eq_of_compare eq).symm
      simp [same, apart]

/-! ### Keys -/

theorem keys_increasing (m : SortedMap κ α) : m.keys.Pairwise fun a b => compare a b = .lt :=
  List.pairwise_map.2 m.increasing

theorem nodup_keys [Std.LawfulEqOrd κ] (m : SortedMap κ α) : m.keys.Nodup := by
  refine m.keys_increasing.imp ?_
  rintro a b before rfl
  simp at before

/-- Sorting is by a total relation. -/
theorem isLE_or_isLE (compare : β → β → Ordering) [Std.OrientedCmp compare] (a b : β) :
    ((compare a b).isLE || (compare b a).isLE) = true := by
  rw [Bool.or_eq_true]
  cases order : compare a b with
  | lt => exact .inl rfl
  | eq => exact .inl rfl
  | gt => exact .inr (by rw [Std.OrientedCmp.gt_iff_lt.1 order]; rfl)

theorem asymm_compare [Std.TransOrd κ] (key : β → κ) :
    Std.Asymm fun a b : β => compare (key a) (key b) = .lt := by
  refine ⟨fun a b before after => ?_⟩
  rw [Std.OrientedCmp.gt_of_lt before] at after
  cases after

/-- Strictly increasing lists with the same members are equal. -/
theorem eq_of_increasing [Std.TransOrd κ] {l₁ l₂ : List κ}
    (h₁ : l₁.Pairwise fun a b => compare a b = .lt)
    (h₂ : l₂.Pairwise fun a b => compare a b = .lt) (perm : l₁.Perm l₂) : l₁ = l₂ := by
  have := asymm_compare fun k : κ => k
  exact perm.eq_of_pairwise' h₁ h₂

/-- Lookup decides a sorted map. -/
theorem eq_of_find? [Std.TransOrd κ] [Std.LawfulEqOrd κ] {m n : SortedMap κ α}
    (same : ∀ k, m.find? k = n.find? k) : m = n := by
  have := asymm_compare fun e : κ × α => e.1
  refine SortedMap.ext (m.increasing.eq_of_mem_iff n.increasing ?_)
  rintro ⟨k, v⟩
  rw [← find?_eq_some_iff, ← find?_eq_some_iff, same]

/-- Maps are known by what tells their entries apart. -/
theorem eq_empty_or_exists [Std.TransOrd κ] [Std.LawfulEqOrd κ] (m : SortedMap κ α) :
    m = ∅ ∨ ∃ k v, m.find? k = some v := by
  cases entries : m.entries with
  | nil => exact .inl (SortedMap.ext entries)
  | cons e rest =>
    refine .inr ⟨e.1, e.2, find?_eq_some_iff.2 ?_⟩
    rw [entries]
    exact .head _

theorem eq_of_map_entries {m n : SortedMap κ α} {f : κ × α → β} (inj : Function.Injective f)
    (same : m.entries.map f = n.entries.map f) : m = n :=
  SortedMap.ext (List.map_injective_iff.2 inj same)

theorem eq_of_map_keys {s t : SortedSet κ} {f : κ → β} (inj : Function.Injective f)
    (same : s.keys.map f = t.keys.map f) : s = t := by
  apply eq_of_map_entries (f := Prod.fst)
  · rintro ⟨k, _⟩ ⟨_, _⟩ rfl
    rfl
  · exact List.map_injective_iff.2 inj same

theorem ext_keys [Std.TransOrd κ] [Std.LawfulEqOrd κ] {s t : SortedSet κ}
    (same : ∀ k, k ∈ s.keys ↔ k ∈ t.keys) : s = t := by
  apply eq_of_map_keys Function.injective_id
  rw [List.map_id, List.map_id]
  refine eq_of_increasing s.keys_increasing t.keys_increasing ?_
  exact (List.perm_ext_iff_of_nodup s.nodup_keys t.nodup_keys).2 same

theorem contains_insert [Std.TransOrd κ] [Std.LawfulEqOrd κ] [DecidableEq κ] (m : SortedMap κ α)
    (k k' : κ) (v : α) :
    (m.insert k v).contains k' = true ↔ k' = k ∨ m.contains k' = true := by
  rw [contains, find?_insert]
  by_cases same : k' = k <;> simp [same, contains]

theorem contains_insertMany [Std.TransOrd κ] [Std.LawfulEqOrd κ] [DecidableEq κ]
    (m : SortedMap κ α) (l : List (κ × α)) (k : κ) :
    (m.insertMany l).contains k = true ↔ m.contains k = true ∨ k ∈ l.map (·.1) := by
  induction l generalizing m with
  | nil => simp [insertMany]
  | cons e rest ih =>
    have tail := ih (m.insert e.1 e.2)
    rw [contains_insert] at tail
    simp only [insertMany, List.foldl_cons, List.map_cons, List.mem_cons] at tail ⊢
    rw [tail]
    tauto

theorem addKeys_eq_insertMany [Std.TransOrd κ] (s : SortedSet κ) (ks : List κ) :
    s.addKeys ks = s.insertMany (ks.map fun k => (k, ())) := by
  rw [addKeys, insertMany, List.foldl_map]
  rfl

theorem contains_addKeys [Std.TransOrd κ] [Std.LawfulEqOrd κ] [DecidableEq κ] (s : SortedSet κ)
    (ks : List κ) (k : κ) :
    (s.addKeys ks).contains k = true ↔ s.contains k = true ∨ k ∈ ks := by
  rw [addKeys_eq_insertMany, contains_insertMany, List.map_map]
  exact or_congr_right (by rw [show (Prod.fst ∘ fun k : κ => (k, ())) = id from rfl, List.map_id])

theorem contains_ofKeys [Std.TransOrd κ] [Std.LawfulEqOrd κ] [DecidableEq κ] (ks : List κ) (k : κ) :
    (ofKeys ks).contains k = true ↔ k ∈ ks := by
  rw [ofKeys, contains_addKeys]
  simp [contains]

theorem mem_keys [Std.TransOrd κ] [Std.LawfulEqOrd κ] (m : SortedMap κ α) (k : κ) :
    k ∈ m.keys ↔ m.contains k = true := by
  rw [keys, List.mem_map, contains, Option.isSome_iff_exists]
  constructor
  · rintro ⟨⟨_, v⟩, listed, rfl⟩
    exact ⟨v, find?_eq_some_iff.2 listed⟩
  · rintro ⟨v, found⟩
    exact ⟨(k, v), find?_eq_some_iff.1 found, rfl⟩

theorem addKeys_perm [Std.TransOrd κ] [Std.LawfulEqOrd κ] [DecidableEq κ] {ks ks' : List κ}
    (perm : ks.Perm ks') (s : SortedSet κ) : s.addKeys ks = s.addKeys ks' := by
  refine ext_keys fun k => ?_
  rw [mem_keys, mem_keys, contains_addKeys, contains_addKeys, perm.mem_iff]

theorem insert_comm [Std.TransOrd κ] [Std.LawfulEqOrd κ] [DecidableEq κ] {k k' : κ}
    (apart : k ≠ k') (m : SortedMap κ α) (v v' : α) :
    (m.insert k v).insert k' v' = (m.insert k' v').insert k v := by
  refine eq_of_find? fun j => ?_
  rw [find?_insert, find?_insert, find?_insert, find?_insert]
  by_cases first : j = k
  · rw [if_neg (first ▸ apart), if_pos first, if_pos first]
  · rw [if_neg first, if_neg first]

theorem insertMany_perm [Std.TransOrd κ] [Std.LawfulEqOrd κ] [DecidableEq κ]
    {l l' : List (κ × α)} (perm : l.Perm l') (distinct : (l.map Prod.fst).Nodup)
    (m : SortedMap κ α) : m.insertMany l = m.insertMany l' := by
  refine perm.foldl_eq' (fun e mem e' mem' m => ?_) m
  by_cases same : e.1 = e'.1
  · rw [List.inj_on_of_nodup_map distinct mem mem' same]
  · exact insert_comm same m e.2 e'.2

/-- A set has as many members as different keys were put into it. -/
theorem size_ofKeys [Std.TransOrd κ] [Std.LawfulEqOrd κ] [DecidableEq κ] (ks : List κ) :
    (ofKeys ks).size = ks.toFinset.card := by
  have members : (ofKeys ks).keys.toFinset = ks.toFinset := by
    ext k
    rw [List.mem_toFinset, List.mem_toFinset, mem_keys, contains_ofKeys]
  rw [← members, List.toFinset_card_of_nodup (nodup_keys _), keys, List.length_map]
  rfl

/-! ### Fresh keys -/

theorem insertIn_perm [Std.LawfulEqOrd κ] {k : κ} {l : List (κ × α)} (v : α)
    (fresh : k ∉ l.map (·.1)) :
    (insertIn k v l).Perm ((k, v) :: l) := by
  induction l with
  | nil => exact List.Perm.refl _
  | cons hd tl ih =>
    obtain ⟨j, w⟩ := hd
    simp only [List.map_cons, List.mem_cons, not_or] at fresh
    rw [insertIn]
    split
    · exact List.Perm.refl _
    · rename_i same
      exact absurd (Std.LawfulEqCmp.eq_of_compare same) fresh.1
    · exact ((ih fresh.2).cons _).trans (List.Perm.swap _ _ _)

theorem entries_insertMany_perm [Std.TransOrd κ] [Std.LawfulEqOrd κ] {m : SortedMap κ α}
    {l : List (κ × α)}
    (fresh : (m.keys ++ l.map (·.1)).Nodup) : (m.insertMany l).entries.Perm (m.entries ++ l) := by
  induction l generalizing m with
  | nil => simp [insertMany]
  | cons e rest ih =>
    obtain ⟨k, v⟩ := e
    have distinct := List.nodup_append.1 fresh
    have absent : k ∉ m.entries.map (·.1) := fun mem =>
      distinct.2.2 k mem k (by simp) rfl
    have added : (m.insert k v).entries.Perm ((k, v) :: m.entries) := insertIn_perm v absent
    have names : ((m.insert k v).keys ++ rest.map (·.1)).Perm
        (m.keys ++ ((k, v) :: rest).map (·.1)) := by
      refine ((added.map (·.1)).append_right _).trans ?_
      simp only [List.map_cons, List.cons_append]
      exact List.perm_middle.symm
    have tail := ih (m := m.insert k v) (names.nodup_iff.2 fresh)
    show (((m.insert k v).insertMany rest).entries).Perm _
    refine tail.trans ((added.append_right rest).trans ?_)
    simp only [List.cons_append]
    exact List.perm_middle.symm

theorem entries_ofList_perm [Std.TransOrd κ] [Std.LawfulEqOrd κ] {l : List (κ × α)}
    (distinct : (l.map (·.1)).Nodup) :
    (ofList l).entries.Perm l := by
  have fresh : ((∅ : SortedMap κ α).keys ++ l.map (·.1)).Nodup := by
    simpa [keys, EmptyCollection.emptyCollection] using distinct
  simpa [ofList, EmptyCollection.emptyCollection] using entries_insertMany_perm fresh

theorem keys_ofKeys_perm [Std.TransOrd κ] [Std.LawfulEqOrd κ] {ks : List κ} (distinct : ks.Nodup) :
    (ofKeys ks).keys.Perm ks := by
  have names : (ks.map fun k => (k, ())).map (·.1) = ks := by
    rw [List.map_map]
    exact List.map_id ks
  have perm := (entries_ofList_perm (l := ks.map fun k => (k, ())) (by rwa [names])).map (·.1)
  rw [ofKeys, addKeys_eq_insertMany]
  rwa [names] at perm

end ConwayTx.SortedMap
