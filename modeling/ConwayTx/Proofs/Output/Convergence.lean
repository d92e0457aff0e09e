import ConwayTx.Proofs.Output.Minimum

/-!
# Raises come to an end

A raise that does not suffice has made the coin wider, so that its minimum grew. Widths that grow
twice are far apart, and a minimum counts eight bytes more at most: the third raise suffices
(`required_settles`). All runs with enough raises end at one coin, the least admissible one
(`raiseWithin_converges`).
-/

namespace ConwayTx.TxOutput

open Outcome

variable {coinsPerByte : Amount} {rest : Nat} {o : TxOutput}

/-! ### Minimums by the width of the coin -/

/-- The minimum of an output with the coin, and with `rest` bytes besides. -/
def required (coinsPerByte : Amount) (rest : Nat) (coin : Amount) : Amount :=
  Amount.clamp (coinsPerByte.toNat * (rest + Cbor.headLength coin.toNat + overhead))

theorem Weighs.minCoin (weighs : o.Weighs rest) (coinsPerByte coin : Amount) :
    (o.withCoin coin).minCoin coinsPerByte = .ok (required coinsPerByte rest coin) := by
  obtain ⟨item, written, length⟩ := weighs coin
  have size : (o.withCoin coin).size = .ok (rest + Cbor.headLength coin.toNat) := by
    rw [TxOutput.size, written, ← length]
    rfl
  rw [TxOutput.minCoin, size]
  rfl

theorem required_mono {c d : Amount} (le : Cbor.headLength c.toNat ≤ Cbor.headLength d.toNat) :
    required coinsPerByte rest c ≤ required coinsPerByte rest d := by
  have products := Nat.mul_le_mul_left coinsPerByte.toNat
    (Nat.add_le_add_right (Nat.add_le_add_left le rest) overhead)
  rw [UInt64.le_iff_toNat_le, required, required, Amount.toNat_clamp, Amount.toNat_clamp]
  omega

theorem required_le_or_lt (coinsPerByte coin : Amount) (rest : Nat) :
    required coinsPerByte rest coin ≤ coin ∨ coin < required coinsPerByte rest coin := by
  rw [UInt64.le_iff_toNat_le, UInt64.lt_iff_toNat_lt]
  exact (Nat.lt_or_ge _ _).symm

theorem wider_of_required_lt {c d : Amount}
    (lt : required coinsPerByte rest c < required coinsPerByte rest d) :
    Cbor.headLength c.toNat < Cbor.headLength d.toNat := by
  by_contra narrow
  exact UInt64.not_le.2 lt (required_mono (Nat.not_lt.1 narrow))

/-- The bytes charged on top outweigh any coin. -/
theorem required_le_ten_mul (c d : Amount) :
    (required coinsPerByte rest d).toNat ≤ 10 * (required coinsPerByte rest c).toNat := by
  have wide := Cbor.headLength_le d.toNat
  have sizes : rest + Cbor.headLength d.toNat + overhead ≤
      10 * (rest + Cbor.headLength c.toNat + overhead) := by
    rw [overhead]
    omega
  have products := Nat.mul_le_mul_left coinsPerByte.toNat sizes
  rw [Nat.mul_left_comm] at products
  rw [required, required, Amount.toNat_clamp, Amount.toNat_clamp]
  omega

/-- After two raises the third one is the last. -/
theorem required_settles (coinsPerByte coin : Amount) (rest : Nat) :
    let first := required coinsPerByte rest coin
    let second := required coinsPerByte rest first
    let third := required coinsPerByte rest second
    second < third → required coinsPerByte rest third ≤ third := by
  intro first second third short
  by_contra still
  have wider := wider_of_required_lt short
  have widest := wider_of_required_lt (UInt64.not_le.1 still)
  have apart := Cbor.ten_mul_lt_of_headLength wider widest
  have near : third.toNat ≤ 10 * first.toNat := required_le_ten_mul coin second
  omega

/-! ### Raises -/

variable {allowed : Nat}

theorem raiseLoop_of_admissible (admissible : o.Admissible coinsPerByte) (left : Nat) :
    raiseLoop coinsPerByte allowed left o = .ok o := by
  obtain ⟨minimum, measured, enough⟩ := admissible
  cases left <;>
  · rw [raiseLoop, measured]
    exact if_pos enough

theorem Weighs.admissible {coin : Amount} (weighs : o.Weighs rest)
    (enough : required coinsPerByte rest coin ≤ coin) :
    (o.withCoin coin).Admissible coinsPerByte :=
  ⟨_, weighs.minCoin coinsPerByte coin, enough⟩

theorem Weighs.raiseLoop_succ {coin : Amount} (weighs : o.Weighs rest)
    (short : coin < required coinsPerByte rest coin) (left : Nat) :
    raiseLoop coinsPerByte allowed (left + 1) (o.withCoin coin) =
      raiseLoop coinsPerByte allowed left (o.withCoin (required coinsPerByte rest coin)) := by
  rw [raiseLoop, weighs.minCoin]
  exact if_neg (UInt64.not_le.2 short)

theorem Weighs.raiseLoop_zero {coin : Amount} (weighs : o.Weighs rest)
    (short : coin < required coinsPerByte rest coin) :
    raiseLoop coinsPerByte allowed 0 (o.withCoin coin) =
      .error (.minimumNotReached allowed coin (required coinsPerByte rest coin)) := by
  rw [raiseLoop, weighs.minCoin]
  exact if_neg (UInt64.not_le.2 short)

/-- A run either reaches an output or reports the coin it came to and the minimum of that coin. -/
theorem Weighs.raiseLoop_cases (weighs : o.Weighs rest) (left : Nat) (coin : Amount) :
    (∃ raised, raiseLoop coinsPerByte allowed left (o.withCoin coin) = .ok raised) ∨
    ∃ last, last < required coinsPerByte rest last ∧
      raiseLoop coinsPerByte allowed left (o.withCoin coin) =
        .error (.minimumNotReached allowed last (required coinsPerByte rest last)) := by
  induction left generalizing coin with
  | zero =>
    rcases required_le_or_lt coinsPerByte coin rest with enough | short
    · exact .inl ⟨_, raiseLoop_of_admissible (weighs.admissible enough) 0⟩
    · exact .inr ⟨coin, short, weighs.raiseLoop_zero short⟩
  | succ left ih =>
    rcases required_le_or_lt coinsPerByte coin rest with enough | short
    · exact .inl ⟨_, raiseLoop_of_admissible (weighs.admissible enough) _⟩
    · rw [weighs.raiseLoop_succ short]
      exact ih _

theorem Weighs.raiseLoop_three (weighs : o.Weighs rest) (left : Nat) (coin : Amount) :
    ∃ raised, raiseLoop coinsPerByte allowed (left + 3) (o.withCoin coin) = .ok raised := by
  have done {c : Amount} (n : Nat) (enough : required coinsPerByte rest c ≤ c) :
      ∃ raised, raiseLoop coinsPerByte allowed n (o.withCoin c) = .ok raised :=
    ⟨_, raiseLoop_of_admissible (weighs.admissible enough) n⟩
  rcases required_le_or_lt coinsPerByte coin rest with enough | short
  · exact done _ enough
  rw [weighs.raiseLoop_succ short]
  rcases required_le_or_lt coinsPerByte (required coinsPerByte rest coin) rest
    with enough | short
  · exact done _ enough
  rw [weighs.raiseLoop_succ short]
  rcases required_le_or_lt coinsPerByte
    (required coinsPerByte rest (required coinsPerByte rest coin)) rest with enough | short
  · exact done _ enough
  rw [weighs.raiseLoop_succ short]
  exact done _ (required_settles coinsPerByte coin rest short)

/-! ### Convergence -/

theorem LeastRaise.unique {a b : TxOutput} (left : o.LeastRaise coinsPerByte a)
    (right : o.LeastRaise coinsPerByte b) : a = b := by
  have reached {raised : TxOutput} (least : o.LeastRaise coinsPerByte raised) :
      (o.withCoin raised.coin).Admissible coinsPerByte := least.same ▸ least.admissible
  have coins : a.coin = b.coin := UInt64.le_antisymm
    (left.least b.coin right.covers (reached right)) (right.least a.coin left.covers (reached left))
  rw [left.same, right.same, coins]

/-- Raised from nothing, an output holds its minimum and no more. -/
theorem LeastRaise.minCoin {raised : TxOutput} (least : o.LeastRaise coinsPerByte raised)
    (empty : o.coin = 0) : raised.minCoin coinsPerByte = .ok raised.coin := by
  obtain ⟨minimum, measured, enough⟩ := least.admissible
  obtain ⟨item, written, _⟩ := minCoin_ok measured
  obtain ⟨rest, weighs⟩ := weighs_of_toCbor written
  have again := weighs.minCoin coinsPerByte minimum
  have admissible : (o.withCoin minimum).Admissible coinsPerByte := by
    have same : o.withCoin minimum = raised.withCoin minimum := by
      rw [least.same]
      rfl
    rw [same]
    exact ⟨_, again, minCoin_mono enough again measured⟩
  have covers : o.coin ≤ minimum := by
    rw [empty]
    exact UInt64.zero_le
  rw [measured, UInt64.le_antisymm enough (least.least minimum covers admissible)]

/-- An output that is written is raised to the least admissible coin that is not below its own, by
three raises or by more; a second time changes nothing. With fewer raises the run ends there too, or
it reports the coin that it came to. -/
theorem raiseWithin_converges {value : Cbor} (written : o.value.toCbor = .ok value)
    (coinsPerByte : Amount) :
    ∃ raised, o.LeastRaise coinsPerByte raised ∧
      o.raiseToMinimum coinsPerByte = .ok raised ∧
      raised.raiseToMinimum coinsPerByte = .ok raised ∧
      ∀ rounds, raiseWithin rounds coinsPerByte o = .ok raised ∨
        rounds < 3 ∧ ∃ coin minimum, coin < minimum ∧
          (o.withCoin coin).minCoin coinsPerByte = .ok minimum ∧
          raiseWithin rounds coinsPerByte o = .error (.minimumNotReached rounds coin minimum) := by
  obtain ⟨rest, weighs⟩ := exists_weighs written
  obtain ⟨raised, three⟩ : ∃ raised, raiseLoop coinsPerByte 3 3 (o.withCoin o.coin) = .ok raised :=
    weighs.raiseLoop_three 0 o.coin
  have least := raiseLoop_least three
  have same {allowed left : Nat} {other : TxOutput}
      (run : raiseLoop coinsPerByte allowed left (o.withCoin o.coin) = .ok other) :
      raiseLoop coinsPerByte allowed left o = .ok raised := by
    rw [least.unique (raiseLoop_least run)]
    exact run
  refine ⟨raised, least, three, raiseLoop_of_admissible least.admissible _, fun rounds => ?_⟩
  rcases Nat.lt_or_ge rounds 3 with few | many
  · rcases weighs.raiseLoop_cases rounds o.coin with ⟨other, run⟩ | ⟨coin, short, failed⟩
    · exact .inl (same run)
    · exact .inr ⟨few, coin, _, short, weighs.minCoin coinsPerByte coin, failed⟩
  · obtain ⟨left, rfl⟩ := Nat.exists_eq_add_of_le' many
    obtain ⟨other, run⟩ := weighs.raiseLoop_three left o.coin
    exact .inl (same run)

/-- Here the second raise takes the coin over the next width, so that two are not enough. -/
theorem raiseWithin_converges_third :
    let o : TxOutput := { address := .enterprise .testnet (.key .zero), value := .ofCoin 0 }
    ∃ raised, o.LeastRaise 22000000 raised ∧ raised.coin = 4466000000 ∧
      raiseWithin 3 22000000 o = .ok raised ∧
      ∃ coin minimum, raiseWithin 2 22000000 o = .error (.minimumNotReached 2 coin minimum) := by
  intro o
  obtain ⟨raised, least, three, _, runs⟩ :=
    raiseWithin_converges (o := o) (show o.value.toCbor = .ok (.unsigned 0) from rfl) 22000000
  have reached : (o.raiseToMinimum 22000000).toOption.map coin = some 4466000000 := by
    decide +kernel
  have failed : (raiseWithin 2 22000000 o).toOption.isSome = false := by decide +kernel
  rw [three] at reached
  refine ⟨raised, least, Option.some.inj reached, three, ?_⟩
  rcases runs 2 with done | ⟨_, coin, minimum, _, _, stopped⟩
  · rw [done] at failed
    cases failed
  · exact ⟨coin, minimum, stopped⟩

end ConwayTx.TxOutput
