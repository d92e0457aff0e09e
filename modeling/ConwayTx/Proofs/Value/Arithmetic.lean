import ConwayTx.Proofs.Outcome.Following
import ConwayTx.Proofs.Value.Funds
import ConwayTx.Proofs.Value.Sums

/-!
# Sums and differences

A sum is refused when no word holds its lovelace, a difference when something listed would go below
zero (`add_eq_error_iff`, `refused_sub_iff`); all else is exact. Sums depend neither on the order of
their summands nor on how these are grouped, and a difference takes a summand back
(`arithmetic_laws`).
-/

namespace ConwayTx.Value

open Outcome

variable {a b : Value}

/-! ### Sums -/

theorem add_eq_error_iff {e : ValueError} :
    a.add b = .error e ↔
      Amount.largest < a.coin.toNat + b.coin.toNat ∧ e = .coinOverflow a.coin b.coin := by
  unfold add
  split
  · rename_i overflow
    rw [and_iff_right (Amount.ofNat?_eq_none_iff.1 overflow), Except.error.injEq, eq_comm]
  · rename_i coin fits
    have exact := Amount.ofNat?_eq_some_iff.1 fits
    have word := coin.toNat_le_largest
    refine iff_of_false ?_ fun overflow => by omega
    split <;> exact fun failed => by cases failed

namespace Checked

variable {exact : Funds} {x y : Except ValueError Value}

theorem refused_iff (h : Checked exact x) : (∃ e, x = .error e) ↔ Amount.largest < exact.1 := by
  cases h with
  | @holds v same =>
    have word := v.coin.toNat_le_largest
    have coin : v.coin.toNat = exact.1 := congrArg Prod.fst same
    exact iff_of_false (fun ⟨_, failed⟩ => by cases failed) (by omega)
  | overflows above => exact iff_of_true ⟨_, rfl⟩ above

/-- Two sums of the same funds are the same value, unless no word holds them. -/
theorem toOption_eq (left : Checked exact x) (right : Checked exact y)
    (canonical : ∀ v, x = .ok v → v.Canonical) (canonical' : ∀ v, y = .ok v → v.Canonical) :
    x.toOption = y.toOption := by
  have together := left.refused_iff.trans right.refused_iff.symm
  cases x with
  | error e =>
    obtain ⟨e', failed⟩ := together.1 ⟨e, rfl⟩
    rw [failed]
    rfl
  | ok v =>
    cases y with
    | error e =>
      obtain ⟨e', failed⟩ := together.2 ⟨e, rfl⟩
      cases failed
    | ok w =>
      have same : v.funds = w.funds := left.funds.trans right.funds.symm
      refine congrArg some ((canonical v rfl).eq_of_quantity (canonical' w rfl) ?_ fun p n => ?_)
      · exact UInt64.toNat_inj.1 (congrArg Prod.fst same)
      · exact congrFun (congrArg Prod.snd same) (p, n)

end Checked

theorem toOption_add_comm (a b : Value) : (a.add b).toOption = (b.add a).toOption := by
  have right := checked_add b a
  rw [add_comm] at right
  exact (checked_add a b).toOption_eq right (fun _ => canonical_add) fun _ => canonical_add

theorem toOption_add_assoc (a b c : Value) :
    (do (← a.add b).add c : Except ValueError Value).toOption =
      (do a.add (← b.add c) : Except ValueError Value).toOption := by
  have left := (checked_add a b).bind fun sum => checked_add sum c
  have onTop (sum : Value) : Checked (sum.funds + a.funds) (a.add sum) := by
    rw [add_comm]
    exact checked_add a sum
  have right := (checked_add b c).bind onTop
  rw [add_comm, ← add_assoc] at right
  refine left.toOption_eq right (fun v ended => ?_) fun v ended => ?_
  · obtain ⟨_, _, last⟩ := bind_ok ended
    exact canonical_add last
  · obtain ⟨_, _, last⟩ := bind_ok ended
    exact canonical_add last

theorem toOption_foldlM_add_perm {l l' : List Value} (perm : l.Perm l') (start : Value) :
    (l.foldlM add start).toOption = (l'.foldlM add start).toOption :=
  toOption_eq_of_follows (fun v ended => ⟨v, foldlM_perm perm add_swap ended, rfl⟩)
    fun v ended => ⟨v, foldlM_perm perm.symm add_swap ended, rfl⟩

theorem coin_sum_funds (l : List Value) :
    (l.map funds).sum.1 = Amount.total (l.map Value.coin) := by
  induction l with
  | nil => rfl
  | cons v rest ih =>
    rw [List.map_cons, List.sum_cons, Prod.fst_add, ih]
    rfl

theorem refused_foldlM_add_iff (l : List Value) (start : Value) :
    (∃ e, l.foldlM add start = .error e) ↔
      Amount.largest < start.coin.toNat + Amount.total (l.map Value.coin) := by
  rw [← coin_sum_funds]
  exact (checked_foldlM id l start).refused_iff

/-! ### Differences -/

theorem refused_sub_iff :
    (∃ e, a.sub b = .error e) ↔
      a.coin < b.coin ∨ ∃ p n q, (p, n, q) ∈ b.bundle.listed ∧ a.quantity p n - q < 0 := by
  constructor
  · rintro ⟨e, failed⟩
    unfold sub at failed
    split at failed
    · rename_i short
      exact .inl short
    · split at failed
      · rename_i p n q found
        have below := List.find?_some found
        exact .inr ⟨p, n, q, List.mem_of_find?_eq_some found, by simpa using below⟩
      · split at failed <;> cases failed
  · intro short
    cases difference : a.sub b with
    | error e => exact ⟨e, rfl⟩
    | ok d =>
      obtain ⟨coins, _, held⟩ := of_sub_ok difference
      rcases short with coin | ⟨p, n, q, listed, below⟩
      · have := UInt64.lt_iff_toNat_lt.1 coin
        omega
      · have := held p n q listed
        omega

theorem exists_sub_iff :
    (∃ d, a.sub b = .ok d) ↔
      b.coin.toNat ≤ a.coin.toNat ∧ ∀ p n q, (p, n, q) ∈ b.bundle.listed → q ≤ a.quantity p n := by
  constructor
  · rintro ⟨d, difference⟩
    obtain ⟨coins, _, held⟩ := of_sub_ok difference
    exact ⟨by omega, held⟩
  · rintro ⟨coins, held⟩
    cases difference : a.sub b with
    | ok d => exact ⟨d, rfl⟩
    | error e =>
      rcases refused_sub_iff.1 ⟨e, difference⟩ with coin | ⟨p, n, q, listed, below⟩
      · have := UInt64.lt_iff_toNat_lt.1 coin
        omega
      · have := held p n q listed
        omega

theorem quantity_of_mem_listed {v : Value} {p : PolicyId} {n : AssetName} {q : ℤ}
    (listed : (p, n, q) ∈ v.bundle.listed) : v.quantity p n = q :=
  MultiAsset.quantity_of_mem_listed listed

/-- A summand is taken back, whatever its signs are. -/
theorem exists_sub_of_add {s : Value} (sound : a.NoNegative) (sum : a.add b = .ok s) :
    ∃ d, s.sub b = .ok d ∧ d.coin = a.coin ∧ ∀ p n, d.quantity p n = a.quantity p n := by
  obtain ⟨coins, assets⟩ := of_add_ok sum
  obtain ⟨d, difference⟩ : ∃ d, s.sub b = .ok d := by
    refine exists_sub_iff.2 ⟨by omega, fun p n q listed => ?_⟩
    have := sound p n
    rw [assets, quantity_of_mem_listed listed]
    omega
  obtain ⟨coins', assets', _⟩ := of_sub_ok difference
  refine ⟨d, difference, UInt64.toNat_inj.1 (by omega), fun p n => ?_⟩
  have := assets p n
  have := assets' p n
  omega

/-! ### Both -/

theorem arithmetic_laws (a b c : Value) :
    (∀ e, a.add b = .error e ↔
      Amount.largest < a.coin.toNat + b.coin.toNat ∧ e = .coinOverflow a.coin b.coin) ∧
    (∀ s, a.add b = .ok s → s.coin.toNat = a.coin.toNat + b.coin.toNat ∧
      ∀ p n, s.quantity p n = a.quantity p n + b.quantity p n) ∧
    (a.add b).toOption = (b.add a).toOption ∧
    (do (← a.add b).add c : Except ValueError Value).toOption =
      (do a.add (← b.add c) : Except ValueError Value).toOption ∧
    (∀ l l' : List Value, l.Perm l' →
      (l.foldlM add a).toOption = (l'.foldlM add a).toOption ∧
      ((∃ e, l.foldlM add a = .error e) ↔
        Amount.largest < a.coin.toNat + Amount.total (l.map Value.coin))) ∧
    ((∃ e, a.sub b = .error e) ↔
      a.coin < b.coin ∨ ∃ p n q, (p, n, q) ∈ b.bundle.listed ∧ a.quantity p n - q < 0) ∧
    (∀ d, a.sub b = .ok d → d.coin.toNat = a.coin.toNat - b.coin.toNat ∧
      ∀ p n, d.quantity p n = a.quantity p n - b.quantity p n) ∧
    (a.NoNegative → ∀ s, a.add b = .ok s →
      ∃ d, s.sub b = .ok d ∧ d.coin = a.coin ∧ ∀ p n, d.quantity p n = a.quantity p n) := by
  refine ⟨fun _ => add_eq_error_iff, fun _ => of_add_ok, toOption_add_comm a b,
    toOption_add_assoc a b c, fun l _ perm => ⟨toOption_foldlM_add_perm perm a,
      refused_foldlM_add_iff l a⟩, refused_sub_iff, fun d difference => ?_, fun sound _ =>
      exists_sub_of_add sound⟩
  obtain ⟨coins, assets, _⟩ := of_sub_ok difference
  refine ⟨by omega, fun p n => ?_⟩
  have := assets p n
  omega

/-- Quantities that cancel out come back when the summand is taken away. -/
theorem arithmetic_laws_cancelled :
    let name : AssetName := ⟨[7], by decide⟩
    let a : Value := ⟨5, some (.ofList [(.zero, .ofList [(⟨[], by decide⟩, 0), (name, 7)])])⟩
    let b : Value := ⟨3, some (.ofList [(.zero, .ofList [(name, -7)])])⟩
    let s : Value := .ofCoin 8
    a.NoNegative ∧ a.add b = .ok s ∧ s.coin.toNat = a.coin.toNat + b.coin.toNat ∧
      [b, s].Perm [s, b] ∧ ([b, s].foldlM add a).toOption = ([s, b].foldlM add a).toOption ∧
      ∃ d, s.sub b = .ok d ∧ d.coin = a.coin ∧ ∀ p n, d.quantity p n = a.quantity p n := by
  intro name a b s
  have sound : a.NoNegative := by decide +kernel
  have sum : a.add b = .ok s := by decide +kernel
  have perm : [b, s].Perm [s, b] := .swap s b []
  obtain ⟨_, exact, _, _, chains, _, _, back⟩ := arithmetic_laws a b s
  exact ⟨sound, sum, (exact s sum).1, perm, (chains _ _ perm).1, back sound s sum⟩

end ConwayTx.Value
