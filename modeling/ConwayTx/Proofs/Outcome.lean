import ConwayTx.BuildError
import Mathlib.Data.List.Forall2

/-!
# Outcomes

A run that ends well went well in each of its steps. Proofs about runs take them apart with these
lemmas instead of unfolding them.
-/

namespace ConwayTx.Outcome

variable {ε ε' α β : Type}

theorem bind_ok {x : Except ε α} {f : α → Except ε β} {b : β} (h : x >>= f = .ok b) :
    ∃ a, x = .ok a ∧ f a = .ok b := by
  cases x with
  | error e => cases h
  | ok a => exact ⟨a, rfl, h⟩

theorem bind_of_ok {x : Except ε α} {f : α → Except ε β} {a : α} (h : x = .ok a) :
    x >>= f = f a := by
  rw [h]
  rfl

theorem ok_of_isSome {x : Except ε α} (h : x.toOption.isSome = true) : ∃ a, x = .ok a := by
  cases x with
  | error e => cases h
  | ok a => exact ⟨a, rfl⟩

theorem ok_of_toOption {x : Except ε α} {a : α} (h : x.toOption = some a) : x = .ok a := by
  cases x with
  | error e => cases h
  | ok b => exact congrArg Except.ok (Option.some.inj h)

theorem error_of_toOption {x : Except ε α} (h : x.toOption = none) : ∃ e, x = .error e := by
  cases x with
  | error e => exact ⟨e, rfl⟩
  | ok a => cases h

theorem mapError_ok {x : Except ε α} {f : ε → ε'} {a : α} (h : x.mapError f = .ok a) :
    x = .ok a := by
  cases x with
  | error e => cases h
  | ok b => cases h; rfl

theorem pure_ok {a b : α} (h : (pure a : Except ε α) = .ok b) : a = b := by
  cases h
  rfl

theorem bind_map {γ : Type} {x : Except ε α} {f : α → Except ε γ} {g : α → Except ε β}
    {after : β → γ} (rest : ∀ a, f a = (g a).map after) : (x >>= f) = (x >>= g).map after := by
  cases x with
  | error e => rfl
  | ok a => exact rest a

theorem ask_ok {task : ChainTask} {answer : Except String α} {a : α}
    (h : task.ask answer = .ok a) : answer = .ok a :=
  mapError_ok h

theorem mapM_ok {f : α → Except ε β} {l : List α} {results : List β}
    (h : l.mapM f = .ok results) : List.Forall₂ (fun a b => f a = .ok b) l results := by
  induction l generalizing results with
  | nil =>
    rw [List.mapM_nil] at h
    obtain rfl := pure_ok h
    exact .nil
  | cons a rest ih =>
    rw [List.mapM_cons] at h
    obtain ⟨b, one, h⟩ := bind_ok h
    obtain ⟨others, more, h⟩ := bind_ok h
    obtain rfl := pure_ok h
    exact .cons one (ih more)

theorem of_mem_mapM_ok {f : α → Except ε β} {l : List α} {results : List β}
    (h : l.mapM f = .ok results) {a : α} (mem : a ∈ l) : ∃ b ∈ results, f a = .ok b := by
  replace h := mapM_ok h
  induction h with
  | nil => cases mem
  | cons one _ ih =>
    rcases List.mem_cons.1 mem with rfl | later
    · exact ⟨_, List.mem_cons_self, one⟩
    · obtain ⟨b, listed, ok⟩ := ih later
      exact ⟨b, List.mem_cons_of_mem _ listed, ok⟩

theorem getElem?_of_mapM_ok {f : α → Except ε β} {l : List α} {results : List β}
    (h : l.mapM f = .ok results) {i : ℕ} {a : α} (placed : l[i]? = some a) :
    ∃ b, results[i]? = some b ∧ f a = .ok b := by
  replace h := mapM_ok h
  induction h generalizing i with
  | nil => cases placed
  | cons one _ ih =>
    cases i with
    | zero =>
      cases placed
      exact ⟨_, rfl, one⟩
    | succ i => exact ih placed

theorem forall_mapM_ok {f : α → Except ε β} {p : β → Prop} {l : List α} {results : List β}
    (h : l.mapM f = .ok results) (each : ∀ a ∈ l, ∀ b, f a = .ok b → p b) : ∀ b ∈ results, p b := by
  replace h := mapM_ok h
  induction h with
  | nil => exact List.forall_mem_nil _
  | cons one _ ih =>
    exact List.forall_mem_cons.2 ⟨each _ (.head _) _ one, ih fun a mem => each a (.tail _ mem)⟩

theorem mapM_of_ok {f : α → Except ε β} (g : α → β) {l : List α} (each : ∀ a ∈ l, f a = .ok (g a)) :
    l.mapM f = .ok (l.map g) := by
  induction l with
  | nil => rfl
  | cons a rest ih =>
    have first := each a List.mem_cons_self
    have others := ih fun b mem => each b (List.mem_cons_of_mem a mem)
    rw [List.mapM_cons, first, others]
    rfl

theorem mapM_append_ok {f : α → Except ε β} {xs ys : List α} {us vs : List β}
    (first : xs.mapM f = .ok us) (second : ys.mapM f = .ok vs) :
    (xs ++ ys).mapM f = .ok (us ++ vs) := by
  rw [List.mapM_append]
  exact (bind_of_ok first).trans (bind_of_ok second)

/-- Results agree where the items do, as far as each result shows its item. -/
theorem mapM_eq_iff {f : α → Except ε β} {R : α → α → Prop} {xs ys : List α} {us vs : List β}
    (left : xs.mapM f = .ok us) (right : ys.mapM f = .ok vs)
    (each : ∀ x ∈ xs, ∀ y ∈ ys, ∀ u ∈ us, ∀ v, f x = .ok u → f y = .ok v → (u = v ↔ R x y)) :
    us = vs ↔ List.Forall₂ R xs ys := by
  replace left := mapM_ok left
  replace right := mapM_ok right
  induction left generalizing ys vs with
  | nil =>
    cases right with
    | nil => exact iff_of_true rfl .nil
    | cons _ _ => exact iff_of_false (fun same => by cases same) (fun related => by cases related)
  | cons one _ ih =>
    cases right with
    | nil => exact iff_of_false (fun same => by cases same) (fun related => by cases related)
    | cons one' more' =>
      rw [List.cons.injEq, List.forall₂_cons, each _ (.head _) _ (.head _) _ (.head _) _ one one']
      refine and_congr_right fun _ => ih ?_ more'
      intro x hx y hy u hu
      exact each x (.tail _ hx) y (.tail _ hy) u (.tail _ hu)

theorem mapM_inj_iff {f : α → Except ε β} {xs ys : List α} {us vs : List β}
    (left : xs.mapM f = .ok us) (right : ys.mapM f = .ok vs)
    (each : ∀ x ∈ xs, ∀ y ∈ ys, ∀ u ∈ us, ∀ v, f x = .ok u → f y = .ok v → (u = v ↔ x = y)) :
    us = vs ↔ xs = ys := by
  rw [mapM_eq_iff left right each, List.forall₂_eq_eq_eq]

theorem option_mapM_ok {f : α → Except ε β} {x : Option α} {u : Option β}
    (h : x.mapM f = .ok u) : Option.Rel (fun a b => f a = .ok b) x u := by
  cases x with
  | none =>
    obtain rfl := pure_ok h
    exact .none
  | some a =>
    obtain ⟨b, one, h⟩ := bind_ok h
    obtain rfl := pure_ok h
    exact .some one

theorem forall_option_mapM_ok {f : α → Except ε β} {p : β → Prop} {x : Option α} {u : Option β}
    (h : x.mapM f = .ok u) (each : ∀ a ∈ x, ∀ b, f a = .ok b → p b) : ∀ b ∈ u, p b := by
  rintro b ⟨⟩
  cases option_mapM_ok h with
  | some one => exact each _ rfl _ one

theorem isSome_of_mapM_ok {f : α → Except ε β} {x : Option α} {u : Option β}
    (h : x.mapM f = .ok u) : u.isSome = x.isSome := by
  cases option_mapM_ok h <;> rfl

theorem option_mapM_eq_iff {f : α → Except ε β} {R : α → α → Prop} {x y : Option α} {u v : Option β}
    (left : x.mapM f = .ok u) (right : y.mapM f = .ok v)
    (each : ∀ a b, ∀ c ∈ u, ∀ d, f a = .ok c → f b = .ok d → (c = d ↔ R a b)) :
    u = v ↔ Option.Rel R x y := by
  cases option_mapM_ok left with
  | none =>
    cases option_mapM_ok right with
    | none => exact iff_of_true rfl .none
    | some _ => exact iff_of_false (fun same => by cases same) (fun related => by cases related)
  | some one =>
    cases option_mapM_ok right with
    | none => exact iff_of_false (fun same => by cases same) (fun related => by cases related)
    | some one' =>
      rw [Option.some.injEq, each _ _ _ rfl _ one one']
      refine ⟨.some, ?_⟩
      rintro (related | _)
      exact related

/-- What the results show of the items they come from. -/
theorem map_of_mapM_ok {γ : Type} {f : α → Except ε β} {shown : β → γ} (source : α → γ)
    {l : List α} {results : List β} (h : l.mapM f = .ok results)
    (each : ∀ a b, f a = .ok b → shown b = source a) : results.map shown = l.map source := by
  have steps := mapM_ok h
  clear h
  induction steps with
  | nil => rfl
  | cons one _ ih =>
    rw [List.map_cons, List.map_cons, each _ _ one]
    exact congrArg _ ih

/-- A fold that ends well keeps what each of its steps keeps. -/
theorem foldlM_ok (kept : List α → β → Prop) {step : β → α → Except ε β} {start result : β}
    {l : List α} (h : l.foldlM step start = .ok result) (first : kept [] start)
    (each : ∀ done a s s', kept done s → step s a = .ok s' → kept (done ++ [a]) s') :
    kept l result := by
  have general (l done : List α) (s : β) (holds : kept done s) (run : l.foldlM step s = .ok result) :
      kept (done ++ l) result := by
    induction l generalizing done s with
    | nil =>
      cases run
      simpa using holds
    | cons a rest ih =>
      rw [List.foldlM_cons] at run
      obtain ⟨s', one, more⟩ := bind_ok run
      rw [← List.singleton_append, ← List.append_assoc]
      exact ih (done ++ [a]) s' (each done a s s' holds one) more
  simpa using general l [] start first h

/-- Where two steps that end well can change places, so can all steps of a fold that ends well. -/
theorem foldlM_perm {step : β → α → Except ε β} {l l' : List α} (perm : l.Perm l')
    (swap : ∀ a a' s t r, step s a = .ok t → step t a' = .ok r →
      ∃ t', step s a' = .ok t' ∧ step t' a = .ok r)
    {start result : β} (h : l.foldlM step start = .ok result) :
    l'.foldlM step start = .ok result := by
  induction perm generalizing start with
  | nil => exact h
  | cons a _ ih =>
    rw [List.foldlM_cons] at h ⊢
    obtain ⟨s, one, h⟩ := bind_ok h
    rw [one]
    exact ih h
  | swap a a' l =>
    rw [List.foldlM_cons] at h ⊢
    obtain ⟨s, one, h⟩ := bind_ok h
    rw [List.foldlM_cons] at h
    obtain ⟨t, two, h⟩ := bind_ok h
    obtain ⟨s', one', two'⟩ := swap _ _ _ _ _ one two
    rw [one']
    show (a' :: l).foldlM step s' = _
    rw [List.foldlM_cons, two']
    exact h
  | trans _ _ ih ih' => exact ih' (ih h)

/-! ### Two runs -/

/-- Both end with one error, or both end well and their results are related. -/
inductive Agree (R : α → β → Prop) : Except ε α → Except ε β → Prop where
  | ok {a : α} {b : β} (related : R a b) : Agree R (.ok a) (.ok b)
  | error (e : ε) : Agree R (.error e) (.error e)

theorem Agree.of_eq {x y : Except ε α} (same : x = y) : Agree Eq x y := by
  subst same
  cases x with
  | error e => exact .error e
  | ok a => exact .ok rfl

theorem Agree.elim {R : α → β → Prop} {x : Except ε α} {y : Except ε β} (agree : Agree R x y) :
    (∃ e, x = .error e ∧ y = .error e) ∨ ∃ a b, x = .ok a ∧ y = .ok b ∧ R a b := by
  cases agree with
  | ok related => exact .inr ⟨_, _, rfl, rfl, related⟩
  | error e => exact .inl ⟨e, rfl, rfl⟩

theorem Agree.eq {x y : Except ε α} (agree : Agree Eq x y) : x = y := by
  cases agree with
  | ok related => rw [related]
  | error e => rfl

theorem Agree.of_map {γ : Type} {x y : Except ε α} {f : α → γ} (same : x.map f = y.map f) :
    Agree (fun a b => f a = f b) x y := by
  cases x with
  | error e =>
    cases y with
    | error e' => cases same; exact .error e
    | ok b => cases same
  | ok a =>
    cases y with
    | error e' => cases same
    | ok b => exact .ok (Except.ok.inj same)

theorem Agree.bind {γ δ : Type} {R : α → β → Prop} {S : γ → δ → Prop} {x : Except ε α}
    {y : Except ε β} {f : α → Except ε γ} {g : β → Except ε δ} (first : Agree R x y)
    (rest : ∀ a b, R a b → Agree S (f a) (g b)) : Agree S (x >>= f) (y >>= g) := by
  cases first with
  | ok related => exact rest _ _ related
  | error e => exact .error e

theorem Agree.bind_same {γ δ : Type} {S : γ → δ → Prop} {x : Except ε α} {f : α → Except ε γ}
    {g : α → Except ε δ} (rest : ∀ a, Agree S (f a) (g a)) : Agree S (x >>= f) (x >>= g) := by
  refine (Agree.of_eq rfl).bind ?_
  rintro a _ rfl
  exact rest a

theorem Agree.mapError {R : α → β → Prop} {x : Except ε α} {y : Except ε β} (agree : Agree R x y)
    (f : ε → ε') : Agree R (x.mapError f) (y.mapError f) := by
  cases agree with
  | ok related => exact .ok related
  | error e => exact .error (f e)

end ConwayTx.Outcome
