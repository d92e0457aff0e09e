import ConwayTx.Proofs.Outcome

/-!
# Runs that end well when others do

Two runs may stop at different errors and still reach the same results. `Follows` is about the
results alone; it is put together step by step, as the runs are.
-/

namespace ConwayTx.Outcome

variable {ε α β γ δ : Type}

/-- Where the first run ends well so does the second, and their results are related. -/
def Follows (R : α → β → Prop) (x : Except ε α) (y : Except ε β) : Prop :=
  ∀ a, x = .ok a → ∃ b, y = .ok b ∧ R a b

variable {R : α → β → Prop} {S : γ → δ → Prop} {x : Except ε α} {y : Except ε β}

namespace Follows

theorem ok {a : α} {b : β} (related : R a b) : Follows R (.ok a : Except ε α) (.ok b) := by
  rintro _ ⟨⟩
  exact ⟨b, rfl, related⟩

theorem error {e : ε} : Follows R (.error e) y := by
  rintro _ ⟨⟩

theorem refl (x : Except ε α) : Follows Eq x x := fun a h => ⟨a, h, rfl⟩

theorem bind {f : α → Except ε γ} {g : β → Except ε δ} (first : Follows R x y)
    (rest : ∀ a b, R a b → Follows S (f a) (g b)) : Follows S (x >>= f) (y >>= g) := by
  intro c h
  obtain ⟨a, one, h⟩ := bind_ok h
  obtain ⟨b, one', related⟩ := first a one
  rw [one']
  exact rest a b related c h

theorem bind_same {f : α → Except ε γ} {g : α → Except ε δ}
    (rest : ∀ a, Follows S (f a) (g a)) : Follows S (x >>= f) (x >>= g) := by
  refine (refl x).bind ?_
  rintro a _ rfl
  exact rest a

theorem mapError {ε' : Type} {f : ε → ε'} (follows : Follows R x y) :
    Follows R (x.mapError f) (y.mapError f) := by
  intro a h
  obtain ⟨b, ended, related⟩ := follows a (mapError_ok h)
  exact ⟨b, by rw [ended]; rfl, related⟩

end Follows

/-- Runs that follow each other end well together, with one result. -/
theorem ok_iff_of_follows {x y : Except ε α} (there : Follows Eq x y) (back : Follows Eq y x)
    (a : α) : x = .ok a ↔ y = .ok a := by
  constructor
  · intro h
    obtain ⟨_, ended, rfl⟩ := there a h
    exact ended
  · intro h
    obtain ⟨_, ended, rfl⟩ := back a h
    exact ended

theorem toOption_eq_of_follows {x y : Except ε α} (there : Follows Eq x y) (back : Follows Eq y x) :
    x.toOption = y.toOption := by
  cases x with
  | ok a =>
    obtain ⟨_, ended, rfl⟩ := there a rfl
    rw [ended]
  | error e =>
    cases y with
    | ok b =>
      obtain ⟨_, ended, _⟩ := back b rfl
      cases ended
    | error e' => rfl

end ConwayTx.Outcome
