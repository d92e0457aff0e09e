import ConwayTx.Proofs.Outcome

/-!
# What a run fails with

`Fails kind` says that every failure of a run is of a kind, whether it fails or not. A run fails with
what one of its steps fails with, and it is `Refused` just where one of them is.
-/

namespace ConwayTx.Outcome

variable {ε ε' α β : Type} {kind : ε → Prop}

/-- Whatever the run fails with is of the kind. -/
def Fails (kind : ε → Prop) (x : Except ε α) : Prop := ∀ e, x = .error e → kind e

namespace Fails

theorem ok (a : α) : Fails kind (.ok a : Except ε α) := fun _ failed => by cases failed

theorem error {e : ε} (given : kind e) : Fails kind (.error e : Except ε α) := by
  rintro _ ⟨⟩
  exact given

theorem imp {x : Except ε α} {kind' : ε → Prop} (fails : Fails kind x)
    (sub : ∀ e, kind e → kind' e) : Fails kind' x := fun e failed => sub e (fails e failed)

theorem bind {x : Except ε α} {f : α → Except ε β} (first : Fails kind x)
    (rest : ∀ a, x = .ok a → Fails kind (f a)) : Fails kind (x >>= f) := by
  cases x with
  | error e => exact error (first e rfl)
  | ok a => exact rest a rfl

theorem mapError {x : Except ε α} {f : ε → ε'} {kind : ε' → Prop}
    (inner : Fails (fun e => kind (f e)) x) : Fails kind (x.mapError f) := by
  cases x with
  | error e => exact error (inner e rfl)
  | ok a => exact ok a

/-- The new name of every error is of the kind. -/
theorem renamed {x : Except ε α} {f : ε → ε'} {kind : ε' → Prop} (each : ∀ e, kind (f e)) :
    Fails kind (x.mapError f) :=
  mapError fun e _ => each e

theorem mapM {f : α → Except ε β} {l : List α} (each : ∀ a ∈ l, Fails kind (f a)) :
    Fails kind (l.mapM f) := by
  induction l with
  | nil => exact ok []
  | cons a rest ih =>
    rw [List.mapM_cons]
    refine (each a (.head _)).bind fun b _ => ?_
    exact (ih fun a mem => each a (.tail _ mem)).bind fun others _ => ok _

theorem option_mapM {f : α → Except ε β} {x : Option α} (each : ∀ a ∈ x, Fails kind (f a)) :
    Fails kind (x.mapM f) := by
  cases x with
  | none => exact ok none
  | some a => exact (each a rfl).bind fun b _ => ok (some b)

theorem foldlM {step : β → α → Except ε β} (each : ∀ s a, Fails kind (step s a)) (l : List α)
    (start : β) : Fails kind (l.foldlM step start) := by
  induction l generalizing start with
  | nil => exact ok start
  | cons a rest ih =>
    rw [List.foldlM_cons]
    exact (each start a).bind fun s _ => ih s

end Fails

/-! ### Whether a run fails -/

/-- The run fails, with whatever error. -/
def Refused (x : Except ε α) : Prop := ∃ e, x = .error e

theorem refused_error (e : ε) : Refused (.error e : Except ε α) := ⟨e, rfl⟩

theorem not_refused_ok (a : α) : ¬ Refused (.ok a : Except ε α) := fun ⟨_, failed⟩ => by cases failed

theorem not_refused_iff {x : Except ε α} : ¬ Refused x ↔ ∃ a, x = .ok a := by
  cases x with
  | error e => exact iff_of_false (fun fine => fine (refused_error e)) fun ⟨_, ended⟩ => by cases ended
  | ok a => exact iff_of_true (not_refused_ok a) ⟨a, rfl⟩

/-- What the second step is refused for may depend on how the first one ends well. -/
theorem refused_bind_iff {x : Except ε α} {f : α → Except ε β} {reason : Prop}
    (rest : ∀ a, x = .ok a → (Refused (f a) ↔ reason)) :
    Refused (x >>= f) ↔ Refused x ∨ reason := by
  cases x with
  | error e => exact iff_of_true (refused_error e) (.inl (refused_error e))
  | ok a =>
    refine (rest a rfl).trans (or_iff_right ?_).symm
    exact not_refused_ok a

theorem refused_map_iff {x : Except ε α} {f : α → β} : Refused (f <$> x) ↔ Refused x := by
  cases x with
  | error e => exact iff_of_true (refused_error e) (refused_error e)
  | ok a => exact iff_of_false (not_refused_ok (f a)) (not_refused_ok a)

theorem refused_bind_pure_iff {x : Except ε α} {f : α → β} :
    Refused (do return f (← x) : Except ε β) ↔ Refused x := by
  cases x with
  | error e => exact iff_of_true (refused_error e) (refused_error e)
  | ok a => exact iff_of_false (not_refused_ok (f a)) (not_refused_ok a)

theorem refused_mapError_iff {x : Except ε α} {f : ε → ε'} :
    Refused (x.mapError f) ↔ Refused x := by
  cases x with
  | error e => exact iff_of_true (refused_error (f e)) (refused_error e)
  | ok a => exact iff_of_false (not_refused_ok a) (not_refused_ok a)

theorem refused_mapM_iff {f : α → Except ε β} {l : List α} :
    Refused (l.mapM f) ↔ ∃ a ∈ l, Refused (f a) := by
  induction l with
  | nil => exact iff_of_false (not_refused_ok []) fun ⟨a, mem, _⟩ => by cases mem
  | cons a rest ih =>
    rw [List.mapM_cons, List.exists_mem_cons_iff, ← ih]
    exact refused_bind_iff fun b _ => refused_bind_pure_iff

theorem refused_option_mapM_iff {f : α → Except ε β} {x : Option α} :
    Refused (x.mapM f) ↔ ∃ a ∈ x, Refused (f a) := by
  cases x with
  | none => exact iff_of_false (not_refused_ok none) fun ⟨a, mem, _⟩ => by cases mem
  | some a => simpa using refused_map_iff (x := f a) (f := some)

/-! ### The error itself -/

def error? : Except ε α → Option ε
  | .error e => some e
  | .ok _ => none

theorem error_of_error? {x : Except ε α} {e : ε} (h : error? x = some e) : x = .error e := by
  cases x with
  | error e' => exact congrArg Except.error (Option.some.inj h)
  | ok a => cases h

end ConwayTx.Outcome
