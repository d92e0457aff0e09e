import ConwayTx.Proofs.Redeemer.Layout

/-!
# Pointers and targets

The pointer of a target is the first one that leads to the target (`pointer?_eq_some_iff`). So looking
up targets inverts looking up pointers just where no container lists a target twice
(`inverse_iff_nodup`). Inputs and policies are keys of their containers; withdrawals are keyed by
address, and a credential has an address on each network.
-/

namespace ConwayTx.RedeemerLayout

variable {l : RedeemerLayout} {tag : RedeemerTag} {t : RedeemerTarget} {p : RedeemerPointer}

/-! ### Containers as lists of targets -/

/-- What the pointers with a tag number. -/
def items (l : RedeemerLayout) : RedeemerTag → List RedeemerTarget
  | .spend => l.inputs.map .spend
  | .mint => l.policies.map .mint
  | .reward => l.credentials.map .reward
  | .cert => []

theorem idxOf?_eq_some_iff {α : Type} [BEq α] [LawfulBEq α] {items : List α} {a : α} {i : Nat} :
    items.idxOf? a = some i ↔ items[i]? = some a ∧ ∀ j < i, items[j]? ≠ some a := by
  rw [List.idxOf?_eq_some_iff]
  constructor
  · rintro ⟨bound, here, first⟩
    refine ⟨List.getElem?_eq_some_iff.2 ⟨bound, here⟩, fun j before there => ?_⟩
    obtain ⟨_, there⟩ := List.getElem?_eq_some_iff.1 there
    exact first j before there
  · rintro ⟨here, first⟩
    obtain ⟨bound, here⟩ := List.getElem?_eq_some_iff.1 here
    refine ⟨bound, here, fun j before there => first j before ?_⟩
    exact List.getElem?_eq_some_iff.2 ⟨before.trans bound, there⟩

theorem position?_eq (l : RedeemerLayout) (t : RedeemerTarget) :
    l.position? t = (l.items t.tag).idxOf? t := by
  refine Option.ext fun i => ?_
  cases t <;> simp [position?, items, RedeemerTarget.tag, idxOf?_eq_some_iff]

theorem target?_eq (l : RedeemerLayout) (p : RedeemerPointer) :
    l.target? p = (l.items p.tag)[p.index.toNat]? := by
  obtain ⟨tag, index⟩ := p
  cases tag with
  | cert => rfl
  | _ => simp [target?, items]

theorem tag_of_mem_items (mem : t ∈ l.items tag) : t.tag = tag := by
  cases tag with
  | cert => cases mem
  | _ =>
    obtain ⟨_, _, rfl⟩ := List.mem_map.1 mem
    rfl

theorem tag_of_target? (found : l.target? p = some t) : t.tag = p.tag := by
  rw [target?_eq] at found
  exact tag_of_mem_items (List.mem_of_getElem? found)

theorem Small.items (small : l.Small) (tag : RedeemerTag) : (l.items tag).length ≤ UInt32.size := by
  cases tag with
  | spend => exact (List.length_map _).trans_le small.inputs
  | mint => exact (List.length_map _).trans_le small.policies
  | reward => exact (List.length_map _).trans_le small.credentials
  | cert => exact Nat.zero_le _

/-! ### The first of the pointers that lead to a target -/

theorem pointer?_eq_some_iff (small : l.Small) :
    l.pointer? t = some p ↔ l.target? p = some t ∧
      ∀ q, q.tag = p.tag → q.index < p.index → l.target? q ≠ some t := by
  constructor
  · intro found
    obtain ⟨i, position, rfl⟩ := Option.map_eq_some_iff.1 found
    have index : (UInt32.ofNat i).toNat = i :=
      UInt32.toNat_ofNat_of_lt' (position?_lt small position)
    rw [position?_eq, idxOf?_eq_some_iff] at position
    refine ⟨?_, fun q tags before there => ?_⟩
    · rw [target?_eq, index]
      exact position.1
    · have earlier : q.index.toNat < i := index ▸ UInt32.lt_iff_toNat_lt.1 before
      rw [target?_eq, tags] at there
      exact position.2 _ earlier there
  · rintro ⟨found, first⟩
    have tags := tag_of_target? found
    have position : l.position? t = some p.index.toNat := by
      rw [position?_eq, idxOf?_eq_some_iff, tags, ← target?_eq]
      refine ⟨found, fun j before there => ?_⟩
      have index : (UInt32.ofNat j).toNat = j :=
        UInt32.toNat_ofNat_of_lt' (before.trans p.index.toNat_lt_size)
      refine first ⟨p.tag, UInt32.ofNat j⟩ rfl ?_ ?_
      · rw [UInt32.lt_iff_toNat_lt, index]
        exact before
      · rw [target?_eq, index]
        exact there
    rw [pointer?, position, tags]
    exact congrArg some (RedeemerPointer.ext rfl (by simp))

/-- A container whose targets are all distinct, and no other, has each of them under the pointer that
leads to it. -/
theorem inverse_iff_nodup (small : l.Small) (tag : RedeemerTag) :
    (∀ t p, p.tag = tag → (l.pointer? t = some p ↔ l.target? p = some t)) ↔
      (l.items tag).Nodup := by
  constructor
  · intro inverse
    rw [List.nodup_iff_getElem?_ne_getElem?]
    intro i j before bound same
    have there : (l.items tag)[j]? = some (l.items tag)[j] := List.getElem?_eq_getElem bound
    have leads {k : Nat} (le : k ≤ j) (found : (l.items tag)[k]? = some (l.items tag)[j]) :
        l.pointer? (l.items tag)[j] = some ⟨tag, UInt32.ofNat k⟩ ∧ (UInt32.ofNat k).toNat = k := by
      have index : (UInt32.ofNat k).toNat = k :=
        UInt32.toNat_ofNat_of_lt' ((le.trans_lt bound).trans_le (small.items tag))
      refine ⟨(inverse _ _ rfl).2 ?_, index⟩
      rw [target?_eq, index]
      exact found
    obtain ⟨first, atFirst⟩ := leads before.le (same.trans there)
    obtain ⟨second, atSecond⟩ := leads le_rfl there
    have pointers := Option.some.inj (first.symm.trans second)
    have indices : (UInt32.ofNat i).toNat = (UInt32.ofNat j).toNat :=
      congrArg (fun p => p.index.toNat) pointers
    omega
  · intro distinct t p tags
    rw [pointer?_eq_some_iff small, and_iff_left_of_imp]
    intro found q tags' before there
    rw [target?_eq, tags] at found
    rw [target?_eq, tags', tags, ← found] at there
    have bound := (List.getElem?_eq_some_iff.1 found).1
    have indices := (List.getElem?_inj bound distinct).1 there.symm
    exact UInt32.ne_of_lt before (UInt32.toNat_inj.1 indices.symm)

/-! ### Layouts of bodies -/

theorem nodup_items_spend (b : TxBody) : ((ofBody b).items .spend).Nodup :=
  b.inputs.nodup_keys.map fun _ _ => RedeemerTarget.spend.inj

theorem nodup_items_mint (b : TxBody) : ((ofBody b).items .mint).Nodup :=
  (b.mint.getD ∅).nodup_keys.map fun _ _ => RedeemerTarget.mint.inj

theorem nodup_items_reward_iff (b : TxBody) :
    ((ofBody b).items .reward).Nodup ↔
      ∀ a ∈ b.withdrawals.keys, ∀ a' ∈ b.withdrawals.keys, a.credential = a'.credential → a = a' := by
  have listed : (ofBody b).items .reward =
      b.withdrawals.keys.map fun a => .reward a.credential := List.map_map
  rw [listed, List.nodup_map_iff_inj_on b.withdrawals.nodup_keys]
  simp only [RedeemerTarget.reward.injEq]

/-- Of the pointers that lead to a target, the first is its pointer; each position of a container leads
to one target. The two directions are inverse for inputs and policies, and for accounts just where no
credential withdraws on both networks. -/
theorem pointer?_inverse_iff {b : TxBody} (small : (ofBody b).Small) :
    let l := ofBody b
    (∀ t p, l.pointer? t = some p ↔ l.target? p = some t ∧
      ∀ q, q.tag = p.tag → q.index < p.index → l.target? q ≠ some t) ∧
    (∀ t u p, l.pointer? t = some p → l.pointer? u = some p → t = u) ∧
    (∀ p, (∃! t, l.target? p = some t) ↔ p.index.toNat < (l.items p.tag).length) ∧
    (∀ t p, p.tag ≠ .reward → (l.pointer? t = some p ↔ l.target? p = some t)) ∧
    ((∀ t p, l.pointer? t = some p ↔ l.target? p = some t) ↔
      ∀ a ∈ b.withdrawals.keys, ∀ a' ∈ b.withdrawals.keys,
        a.credential = a'.credential → a = a') := by
  intro l
  have apart : ∀ t p, p.tag ≠ .reward → (l.pointer? t = some p ↔ l.target? p = some t) := by
    intro t p other
    apply (inverse_iff_nodup small p.tag).2 _ t p rfl
    cases tag : p.tag with
    | spend => exact nodup_items_spend b
    | mint => exact nodup_items_mint b
    | reward => exact absurd tag other
    | cert => exact List.nodup_nil
  refine ⟨fun t p => pointer?_eq_some_iff small, fun t u p => pointer?_inj small, ?_, apart, ?_⟩
  · intro p
    rw [target?_eq]
    constructor
    · rintro ⟨t, found, _⟩
      exact (List.getElem?_eq_some_iff.1 found).1
    · intro bound
      have found : (l.items p.tag)[p.index.toNat]? = some (l.items p.tag)[p.index.toNat] :=
        List.getElem?_eq_getElem bound
      exact ⟨_, found, fun t other => Option.some.inj (other.symm.trans found)⟩
  · rw [← nodup_items_reward_iff, ← inverse_iff_nodup small]
    constructor
    · intro inverse t p _
      exact inverse t p
    · intro rewards t p
      by_cases tag : p.tag = .reward
      · exact rewards t p tag
      · exact apart t p tag

/-- Inputs, policies and accounts of one network. -/
theorem pointer?_inverse_iff_one_network :
    let b : TxBody := {
      inputs := .ofKeys [⟨.zero, 7⟩, ⟨.zero, 2⟩]
      mint := some (.ofList [(.zero, ∅)])
      withdrawals := .ofList [(⟨.testnet, .script .zero⟩, 5), (⟨.testnet, .key .zero⟩, 6)] }
    let l := ofBody b
    l.Small ∧ l.target? ⟨.reward, 1⟩ = some (.reward (.script .zero)) ∧
      l.pointer? (.reward (.script .zero)) = some ⟨.reward, 1⟩ ∧
      ∀ t p, l.pointer? t = some p ↔ l.target? p = some t := by
  intro b l
  have small : l.Small := ⟨by decide +kernel, by decide +kernel, by decide +kernel⟩
  have inverse := (pointer?_inverse_iff small).2.2.2.2.2 (by decide +kernel)
  have found : l.target? ⟨.reward, 1⟩ = some (.reward (.script .zero)) := by decide +kernel
  exact ⟨small, found, (inverse _ _).2 found, inverse⟩

/-- A credential that withdraws on both networks is the target of two positions, and has the pointer of
the first. -/
theorem pointer?_inverse_not :
    let b : TxBody := {
      withdrawals := .ofList [(⟨.testnet, .key .zero⟩, 1), (⟨.mainnet, .key .zero⟩, 2)] }
    let l := ofBody b
    l.Small ∧ l.target? ⟨.reward, 1⟩ = some (.reward (.key .zero)) ∧
      l.pointer? (.reward (.key .zero)) = some ⟨.reward, 0⟩ ∧
      ¬ ∀ t p, l.pointer? t = some p ↔ l.target? p = some t := by
  intro b l
  have found : l.target? ⟨.reward, 1⟩ = some (.reward (.key .zero)) := by decide +kernel
  have first : l.pointer? (.reward (.key .zero)) = some ⟨.reward, 0⟩ := by decide +kernel
  refine ⟨⟨by decide +kernel, by decide +kernel, by decide +kernel⟩, found, first, ?_⟩
  intro inverse
  have second := (inverse _ _).2 found
  rw [first] at second
  cases second

end ConwayTx.RedeemerLayout
