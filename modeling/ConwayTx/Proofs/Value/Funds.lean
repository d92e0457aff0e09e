import ConwayTx.Output
import ConwayTx.Proofs.Value.Quantity

/-!
# Funds

Lovelace and asset quantities without bounds. They add up and compare componentwise, so one
equation of funds speaks about the lovelace and about every asset.
-/

namespace ConwayTx

abbrev Asset := PolicyId × AssetName

/-- Lovelace, and a quantity of each asset. -/
abbrev Funds := ℕ × (Asset → ℤ)

def Funds.ofCoin (coin : ℕ) : Funds := (coin, 0)

namespace Value

def funds (v : Value) : Funds := (v.coin.toNat, fun asset => v.quantity asset.1 asset.2)

def NoNegative (v : Value) : Prop := ∀ policy name, 0 ≤ v.quantity policy name

theorem noNegative_iff {v : Value} : v.NoNegative ↔ ∀ e ∈ v.bundle.listed, 0 ≤ e.2.2 := by
  constructor
  · rintro sound ⟨policy, name, q⟩ mem
    rw [← MultiAsset.quantity_of_mem_listed mem]
    exact sound policy name
  · intro sound policy name
    cases listed : (v.bundle.find? policy).bind (·.find? name) with
    | some q =>
      have mem := MultiAsset.mem_listed.2 listed
      have same : v.quantity policy name = q := MultiAsset.quantity_of_mem_listed mem
      rw [same]
      exact sound _ mem
    | none => simp [quantity, MultiAsset.quantity, listed]

instance (v : Value) : Decidable v.NoNegative := decidable_of_iff' _ noNegative_iff

@[simp] theorem funds_ofCoin (coin : Amount) : (ofCoin coin).funds = Funds.ofCoin coin.toNat := rfl

theorem noNegative_ofCoin (coin : Amount) : (ofCoin coin).NoNegative := fun _ _ => le_rfl

theorem funds_nonneg {v : Value} (sound : v.NoNegative) : 0 ≤ v.funds :=
  ⟨Nat.zero_le _, fun asset => sound asset.1 asset.2⟩

theorem noNegative_of_funds {v : Value} (nonneg : 0 ≤ v.funds) : v.NoNegative :=
  fun policy name => nonneg.2 (policy, name)

theorem funds_add {a b v : Value} (sum : a.add b = .ok v) : v.funds = a.funds + b.funds := by
  obtain ⟨coin, assets⟩ := of_add_ok sum
  exact Prod.ext coin (funext fun asset => assets asset.1 asset.2)

theorem funds_sub {a b v : Value} (difference : a.sub b = .ok v) : v.funds + b.funds = a.funds := by
  obtain ⟨coin, assets, _⟩ := of_sub_ok difference
  exact Prod.ext coin (funext fun asset => assets asset.1 asset.2)

/-- What is listed stays above zero, and what is not listed is not touched. -/
theorem noNegative_sub {a b v : Value} (sound : a.NoNegative) (difference : a.sub b = .ok v) :
    v.NoNegative := by
  obtain ⟨_, assets, held⟩ := of_sub_ok difference
  intro policy name
  have whole := assets policy name
  cases listed : (b.bundle.find? policy).bind (·.find? name) with
  | some q =>
    have mem := MultiAsset.mem_listed.2 listed
    have same : b.quantity policy name = q := MultiAsset.quantity_of_mem_listed mem
    have := held policy name q mem
    omega
  | none =>
    have absent : b.quantity policy name = 0 := by simp [quantity, MultiAsset.quantity, listed]
    have := sound policy name
    omega

theorem covers_iff_le {a b : Value} (sound : a.NoNegative) :
    a.covers b = true ↔ b.funds ≤ a.funds := by
  rw [covers_iff, Prod.le_def, Pi.le_def]
  refine and_congr_right fun _ => ⟨fun all asset => ?_, fun all policy name _ => all (policy, name)⟩
  by_cases above : 0 < b.quantity asset.1 asset.2
  · exact all _ _ above
  · exact (not_lt.1 above).trans (sound _ _)

/-! ### Checked sums -/

/-- How a sum of values ends: exactly, or refused because no word holds its lovelace. -/
inductive Checked (exact : Funds) : Except ValueError Value → Prop
  | holds {v : Value} (same : v.funds = exact) : Checked exact (.ok v)
  | overflows {left right : Amount} (above : Amount.largest < exact.1) :
      Checked exact (.error (.coinOverflow left right))

theorem checked_add (a b : Value) : Checked (a.funds + b.funds) (a.add b) := by
  cases sum : a.add b with
  | ok v => exact .holds (funds_add sum)
  | error e =>
    unfold add at sum
    split at sum
    · rename_i overflow
      cases sum
      exact .overflows (Amount.ofNat?_eq_none_iff.1 overflow)
    · split at sum <;> cases sum

theorem Checked.funds {exact : Funds} {v : Value} (h : Checked exact (.ok v)) : v.funds = exact := by
  cases h with
  | holds same => exact same

/-- What comes on top of an overflow leaves it one. -/
theorem Checked.bind {exact more : Funds} {x : Except ValueError Value}
    {f : Value → Except ValueError Value} (first : Checked exact x)
    (rest : ∀ v, Checked (v.funds + more) (f v)) : Checked (exact + more) (x >>= f) := by
  cases first with
  | holds same =>
    rw [← same]
    exact rest _
  | overflows above => exact .overflows (Nat.lt_add_right more.1 above)

theorem checked_foldlM {α : Type} (value : α → Value) (l : List α) (start : Value) :
    Checked (start.funds + (l.map fun a => (value a).funds).sum)
      (l.foldlM (fun sum a => sum.add (value a)) start) := by
  induction l generalizing start with
  | nil => exact .holds (add_zero _).symm
  | cons a rest ih =>
    rw [List.foldlM_cons, List.map_cons, List.sum_cons, ← add_assoc]
    exact (checked_add start (value a)).bind ih

end Value

/-! ### Sums over outputs -/

namespace TxOutput

/-- What a list of outputs holds. -/
def paid (outputs : List TxOutput) : Funds := (outputs.map fun o => o.value.funds).sum

@[simp] theorem paid_nil : paid [] = 0 := rfl

@[simp] theorem paid_cons (o : TxOutput) (outputs : List TxOutput) :
    paid (o :: outputs) = o.value.funds + paid outputs := by
  simp [paid]

theorem paid_append (l₁ l₂ : List TxOutput) : paid (l₁ ++ l₂) = paid l₁ + paid l₂ := by
  simp [paid]

end TxOutput

namespace Utxo

/-- What a list of unspent outputs holds. -/
def held (utxos : List Utxo) : Funds := (utxos.map fun u => u.value.funds).sum

@[simp] theorem held_nil : held [] = 0 := rfl

@[simp] theorem held_cons (u : Utxo) (utxos : List Utxo) :
    held (u :: utxos) = u.value.funds + held utxos := by
  simp [held]

theorem held_append (l₁ l₂ : List Utxo) : held (l₁ ++ l₂) = held l₁ + held l₂ := by
  simp [held]

theorem held_perm {l₁ l₂ : List Utxo} (perm : l₁.Perm l₂) : held l₁ = held l₂ :=
  (perm.map _).sum_eq

theorem held_nonneg {utxos : List Utxo} (sound : ∀ u ∈ utxos, u.value.NoNegative) :
    0 ≤ held utxos := by
  refine List.sum_nonneg fun funds mem => ?_
  obtain ⟨u, inside, rfl⟩ := List.mem_map.1 mem
  exact Value.funds_nonneg (sound u inside)

theorem held_le_of_perm {picks others offered : List Utxo}
    (split : (picks ++ others).Perm offered) (pure : ∀ u ∈ offered, u.value.NoNegative) :
    held picks ≤ held offered := by
  rw [← held_perm split, held_append]
  refine le_add_of_nonneg_right (held_nonneg fun u mem => pure u ?_)
  exact split.subset (List.mem_append_right _ mem)

theorem coin_held (utxos : List Utxo) : (held utxos).1 = Amount.total (utxos.map Utxo.coin) := by
  induction utxos with
  | nil => rfl
  | cons u rest ih =>
    rw [held_cons, Prod.fst_add, ih]
    rfl

end Utxo

end ConwayTx
