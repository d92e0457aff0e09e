import ConwayTx.Chain.Fixed
import ConwayTx.Proofs.Builder.Attached
import ConwayTx.Proofs.Builder.Rearranged

/-!
# Attachments in any order

Inputs that are attached once each come in the order of their calls; mints add up, redeemers and
withdrawals are kept by their keys. So builders whose attachments were made in different orders differ
in the order of their inputs alone (`edited_rearranged`), and finalize to one transaction
(`finalize_rearranged`).
-/

namespace ConwayTx.Builder

open Outcome

/-! ### Parts of attachments -/

section Parts

variable {xs ys : List Attachment}

/-- A part of what is attached takes on one attachment after the other. -/
theorem foldl_attach {σ β : Type} (read : Attached → σ) (part : Attachment → Option β)
    (step : σ → β → σ) (each : ∀ a x, read (a.attach x) = (part x).toList.foldl step (read a))
    (xs : List Attachment) (a : Attached) :
    read (xs.foldl Attached.attach a) = (xs.filterMap part).foldl step (read a) := by
  induction xs generalizing a with
  | nil => rfl
  | cons x rest ih =>
    rw [List.foldl_cons, ih, each]
    cases has : part x with
    | none => rw [List.filterMap_cons_none has]; rfl
    | some y => rw [List.filterMap_cons_some has]; rfl

theorem nodup_part {β κ : Type} {part : Attachment → Option β} {key : β → κ}
    (target : κ → RedeemerTarget)
    (has : ∀ x y, part x = some y → x.target? = some (target (key y)))
    (once : (xs.filterMap Attachment.target?).Nodup) : ((xs.filterMap part).map key).Nodup := by
  have within : (((xs.filterMap part).map key).map target).Sublist
      (xs.filterMap Attachment.target?) := by
    clear once
    induction xs with
    | nil => exact .slnil
    | cons x rest ih =>
      cases held : part x with
      | none =>
        rw [List.filterMap_cons_none held]
        exact ih.trans ((List.sublist_cons_self x rest).filterMap _)
      | some y =>
        rw [List.filterMap_cons_some held, List.filterMap_cons_some (has x y held)]
        exact ih.cons_cons _
  exact .of_map target (once.sublist within)

/-- Of distinct outputs those that are not there yet are added, in their order. -/
theorem foldl_addOutputOnce {l : List Utxo} (distinct : (l.map Utxo.ref).Nodup)
    (start : List Utxo) :
    l.foldl addOutputOnce start = start ++ Balancer.withoutRefs l start := by
  induction l generalizing start with
  | nil => exact (List.append_nil start).symm
  | cons u rest ih =>
    obtain ⟨new, others⟩ := List.nodup_cons.1 distinct
    rw [List.foldl_cons, ih others]
    unfold addOutputOnce
    cases held : start.any (·.ref = u.ref) with
    | true =>
      rw [if_pos rfl]
      congr 1
      exact (List.filter_cons_of_neg (by simp [held])).symm
    | false =>
      have same : Balancer.withoutRefs rest (start ++ [u]) = Balancer.withoutRefs rest start := by
        refine List.filter_congr fun v mem => ?_
        have apart : u.ref ≠ v.ref := fun refs => new (refs ▸ List.mem_map_of_mem mem)
        rw [List.any_append, List.any_cons, decide_eq_false apart]
        simp
      rw [if_neg (by simp), List.append_assoc, same]
      congr 1
      exact (List.filter_cons_of_pos (by simp [held])).symm

theorem preselected_perm (perm : xs.Perm ys) (once : (xs.filterMap Attachment.target?).Nodup)
    (a : Attached) : (xs.foldl Attached.attach a).preselected.Perm
      (ys.foldl Attached.attach a).preselected := by
  have read := foldl_attach Attached.preselected Attachment.input? addOutputOnce fun _ _ => rfl
  have distinct : ((xs.filterMap Attachment.input?).map Utxo.ref).Nodup := by
    refine nodup_part .spend ?_ once
    rintro (_ | _ | _ | _ | _) u ⟨⟩ <;> rfl
  have inputs := perm.filterMap Attachment.input?
  have distinct' := (inputs.map Utxo.ref).nodup_iff.1 distinct
  rw [read xs, read ys, foldl_addOutputOnce distinct, foldl_addOutputOnce distinct']
  exact (inputs.filter _).append_left _

theorem mint_perm (perm : xs.Perm ys) (a : Attached) :
    (xs.foldl Attached.attach a).mint = (ys.foldl Attached.attach a).mint := by
  have read := foldl_attach Attached.mint Attachment.asset?
    (fun v e => v.addAsset e.1 e.2.1 e.2.2) fun _ _ => rfl
  rw [read xs, read ys]
  refine (perm.filterMap _).foldl_eq' (fun e _ e' _ v => ?_) _
  exact Value.addAsset_comm v _ _ _ _ _ _

theorem redeemers_perm (perm : xs.Perm ys) (once : (xs.filterMap Attachment.target?).Nodup)
    (a : Attached) :
    (xs.foldl Attached.attach a).redeemers = (ys.foldl Attached.attach a).redeemers := by
  have read := foldl_attach Attached.redeemers Attachment.redeemer?
    (fun m e => m.insert e.1 e.2) fun _ _ => rfl
  rw [read xs, read ys]
  refine SortedMap.insertMany_perm (perm.filterMap _) (nodup_part id ?_ once) _
  rintro (_ | _ | _ | _ | ⟨stake, _, _ | _⟩) e ⟨⟩ <;> rfl

theorem withdrawals_perm (perm : xs.Perm ys) (once : (xs.filterMap Attachment.target?).Nodup)
    (a : Attached) :
    (xs.foldl Attached.attach a).withdrawals = (ys.foldl Attached.attach a).withdrawals := by
  have read := foldl_attach Attached.withdrawals Attachment.withdrawal?
    (fun m e => m.insert e.1 e.2) fun _ _ => rfl
  rw [read xs, read ys]
  refine SortedMap.insertMany_perm (perm.filterMap _)
    (nodup_part (fun stake => .reward stake.credential) ?_ once) _
  rintro (_ | _ | _ | _ | _) e ⟨⟩
  rfl

end Parts

/-! ### Rows of edits in another order -/

/-- What an edit attaches to, if that must not be attached twice. -/
def Edit.target? (e : Edit) : Option RedeemerTarget := e.attachment?.bind Attachment.target?

/-- The same edits, where those that attach something may have changed places, among each other and
with settings. No output, no withdrawal credential and no policy with a redeemer comes twice. -/
structure Rearranged (edits edits' : List Edit) : Prop where
  kinds : ∀ e ∈ edits, e.attaches = true ∨ e.isSetting = true
  attachments : (edits.filter Edit.attaches).Perm (edits'.filter Edit.attaches)
  settings : (edits.filter fun e => !e.attaches) = edits'.filter fun e => !e.attaches
  once : (edits.filterMap Edit.target?).Nodup

variable {edits edits' : List Edit} {chain : Chain} {b : Builder}

theorem filterMap_attachment? (edits : List Edit) :
    (edits.filter Edit.attaches).filterMap Edit.attachment? = edits.filterMap Edit.attachment? := by
  rw [List.filterMap_filter]
  refine List.filterMap_congr fun e _ => ?_
  cases e <;> rfl

theorem Rearranged.kinds' (same : Rearranged edits edits') :
    ∀ e ∈ edits', e.attaches = true ∨ e.isSetting = true := by
  intro e mem
  by_cases attaches : e.attaches = true
  · exact .inl attaches
  · have setting : e ∈ edits'.filter fun e => !e.attaches :=
      List.mem_filter.2 ⟨mem, by simpa using attaches⟩
    rw [← same.settings] at setting
    exact same.kinds e (List.mem_filter.1 setting).1

/-- Builders that were edited alike differ in the order of their given inputs. -/
theorem edited_rearranged (same : Rearranged edits edits') :
    ∃ inputs, (edited chain b edits).preselected.Perm inputs ∧
      edited chain b edits' = (edited chain b edits).withInputs inputs := by
  have perm : (edits.filterMap Edit.attachment?).Perm (edits'.filterMap Edit.attachment?) := by
    rw [← filterMap_attachment? edits, ← filterMap_attachment? edits']
    exact same.attachments.filterMap _
  have once : ((edits.filterMap Edit.attachment?).filterMap Attachment.target?).Nodup := by
    rw [List.filterMap_filterMap]
    exact same.once
  rw [edited_eq same.kinds, edited_eq same.kinds', ← same.settings]
  refine ⟨_, preselected_perm perm once b.attached, ?_⟩
  unfold withAttached withInputs
  rw [mint_perm perm, redeemers_perm perm once, withdrawals_perm perm once]

/-! ### Finalizing -/

theorem encodeTx_of_finalize {tx : Transaction} (h : (b.finalize chain).1 = .ok tx) :
    (b.finalize chain).2.encodeTx = tx.encode := by
  obtain ⟨balanced, _, _, rfl, after⟩ := finalize_ok h
  rw [after]
  rfl

/-- Builders that were edited alike, with collateral given where scripts run, finalize alike: where
one has a transaction so has the other, the same one to the byte. The evaluator is asked about the
same bytes. -/
theorem finalize_rearranged (chain : Chain) (b : Builder) (same : Rearranged edits edits')
    (given : (edited chain b edits).HasCollateral) :
    let first := edited chain b edits
    let second := edited chain b edits'
    (∀ tx, (first.finalize chain).1 = .ok tx ↔ (second.finalize chain).1 = .ok tx) ∧
      (∀ tx, (first.finalize chain).1 = .ok tx →
        (first.finalize chain).2.encodeTx = (second.finalize chain).2.encodeTx) ∧
      first.evaluated? chain = second.evaluated? chain := by
  intro first second
  obtain ⟨inputs, perm, others⟩ : ∃ inputs, first.preselected.Perm inputs ∧
      second = first.withInputs inputs := edited_rearranged same
  have iff (tx : Transaction) : (first.finalize chain).1 = .ok tx ↔
      (second.finalize chain).1 = .ok tx := by
    rw [others]
    exact finalize_perm perm given tx
  refine ⟨iff, fun tx done => ?_, ?_⟩
  · rw [encodeTx_of_finalize done, encodeTx_of_finalize ((iff tx).1 done)]
  · rw [others]
    exact evaluated?_perm perm given

theorem finalize_rearranged_reversed :
    let address : Address := .enterprise .testnet (.key .zero)
    let script : Address := .enterprise .testnet (.script .zero)
    let holding (index : UInt32) (address : Address) : Utxo :=
      ⟨⟨.zero, index⟩, { address, value := .ofCoin 9000000 }⟩
    let zeros := "00000000000000000000000000000000000000000000000000000000"
    let redeemer (n : Int) : Redeemer := ⟨.integer n, ⟨1000, 1000⟩⟩
    let evaluation : Evaluation := .ofList [(⟨.spend, 1⟩, ⟨7000, 7000⟩), (⟨.mint, 0⟩, ⟨8000, 8000⟩),
      (⟨.reward, 0⟩, ⟨9000, 9000⟩)]
    let chain := FixedChain.toChain { evaluator := some fun _ => .ok evaluation }
    let attachments : List Edit := [
      .addInput (holding 1 address), .collectFrom (holding 2 script) (redeemer 0),
      .mintAssetsWithRedeemer ⟨zeros, "", 7⟩ (redeemer 1), .mintAssets ⟨zeros, "", -7⟩,
      .mintAssets ⟨zeros, "aa", 2⟩,
      .addWithdrawal (.stake ⟨.testnet, .script .zero⟩) 5 (some (redeemer 2))]
    let settings : List Edit := [.setChangeAddress address, .addCollateral (holding 3 address),
      .addPayment { address, lovelace := 2000000 }]
    let first := edited chain {} (attachments ++ settings)
    let second := edited chain {} (settings ++ attachments.reverse)
    ∃ tx bytes trial, (first.finalize chain).1 = .ok tx ∧ (second.finalize chain).1 = .ok tx ∧
      (first.finalize chain).2.encodeTx = .ok bytes ∧
      (second.finalize chain).2.encodeTx = .ok bytes ∧
      first.evaluated? chain = some trial ∧ second.evaluated? chain = some trial ∧
      tx.witnesses.redeemers.size = 3 ∧
      first.preselected.map Utxo.ref ≠ second.preselected.map Utxo.ref := by
  intro address script holding zeros redeemer evaluation chain attachments settings first second
  have kinds : ∀ e ∈ attachments ++ settings, e.attaches = true ∨ e.isSetting = true := by decide
  have once : ((attachments ++ settings).filterMap Edit.target?).Nodup := by decide +kernel
  have same : Rearranged (attachments ++ settings) (settings ++ attachments.reverse) :=
    ⟨kinds, (List.reverse_perm attachments).symm, rfl, once⟩
  have given : first.HasCollateral := by
    have held : first.collateral.isEmpty = false := by decide +kernel
    intro _ none
    rw [none] at held
    cases held
  obtain ⟨tx, done⟩ := ok_of_isSome
    (show (first.finalize chain).1.toOption.isSome = true by decide +kernel)
  obtain ⟨iff, encodes, asked⟩ := finalize_rearranged chain {} same given
  obtain ⟨bytes, encoded⟩ := ok_of_isSome
    (show (first.finalize chain).2.encodeTx.toOption.isSome = true by decide +kernel)
  obtain ⟨trial, tried⟩ := Option.isSome_iff_exists.1
    (show (first.evaluated? chain).isSome = true by decide +kernel)
  have placed : (first.finalize chain).1.toOption.map (·.witnesses.redeemers.size) = some 3 := by
    decide +kernel
  rw [done] at placed
  have apart : first.preselected.map Utxo.ref ≠ second.preselected.map Utxo.ref := by
    decide +kernel
  exact ⟨tx, bytes, trial, done, (iff tx).1 done, encoded, (encodes tx done).symm.trans encoded,
    tried, asked.symm.trans tried, Option.some.inj placed, apart⟩

end ConwayTx.Builder
