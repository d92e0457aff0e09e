import ConwayTx.Proofs.Builder.Reachable

/-!
# What is attached to a builder

Inputs, mints, withdrawals and their redeemers are attached by five edits, each of which reads and
writes this part alone (`apply_of_attachment?`). Settings neither read nor write it
(`apply_withAttached`), so in a row of edits the attachments can be made after all settings
(`edited_eq`).
-/

namespace ConwayTx.Builder

open Outcome

/-! ### The attached part -/

@[ext]
structure Attached where
  preselected : List Utxo
  mint : Value
  redeemers : PendingRedeemers
  withdrawals : Withdrawals

def attached (b : Builder) : Attached := ⟨b.preselected, b.mint, b.redeemers, b.withdrawals⟩

def withAttached (b : Builder) (a : Attached) : Builder :=
  { b with
    preselected := a.preselected
    mint := a.mint
    redeemers := a.redeemers
    withdrawals := a.withdrawals }

theorem ref_mem_addOutputOnce {utxos : List Utxo} {u : Utxo} {ref : TxIn} :
    ref ∈ (addOutputOnce utxos u).map Utxo.ref ↔ ref ∈ utxos.map Utxo.ref ∨ ref = u.ref := by
  unfold addOutputOnce
  split
  · rename_i held
    obtain ⟨v, mem, same⟩ := List.any_eq_true.1 held
    refine ⟨.inl, ?_⟩
    rintro (there | rfl)
    · exact there
    · exact List.mem_map.2 ⟨v, mem, of_decide_eq_true same⟩
  · rw [List.map_append, List.mem_append]
    exact or_congr_right List.mem_singleton

/-! ### Attachments -/

/-- An edit that attaches something, once its arguments are read. -/
inductive Attachment where
  | input (u : Utxo)
  | scriptInput (u : Utxo) (redeemer : Redeemer)
  | asset (policy : PolicyId) (name : AssetName) (q : Int)
  | scriptAsset (policy : PolicyId) (name : AssetName) (q : Int) (redeemer : Redeemer)
  | withdrawal (stake : StakeAddress) (amount : Amount) (redeemer : Option Redeemer)

namespace Attachment

def input? : Attachment → Option Utxo
  | input u | scriptInput u _ => some u
  | _ => none

def asset? : Attachment → Option (PolicyId × AssetName × Int)
  | asset policy name q | scriptAsset policy name q _ => some (policy, name, q)
  | _ => none

def withdrawal? : Attachment → Option (StakeAddress × Amount)
  | withdrawal stake amount _ => some (stake, amount)
  | _ => none

def redeemer? : Attachment → Option (RedeemerTarget × Redeemer)
  | scriptInput u redeemer => some (.spend u.ref, redeemer)
  | scriptAsset policy _ _ redeemer => some (.mint policy, redeemer)
  | withdrawal stake _ redeemer => redeemer.map (.reward stake.credential, ·)
  | _ => none

/-- What must not be attached twice if the order is not to matter. -/
def target? : Attachment → Option RedeemerTarget
  | input u | scriptInput u _ => some (.spend u.ref)
  | asset .. => none
  | scriptAsset policy .. => some (.mint policy)
  | withdrawal stake .. => some (.reward stake.credential)

end Attachment

/-- The four parts take on what is theirs of an attachment. -/
def Attached.attach (a : Attached) (x : Attachment) : Attached where
  preselected := x.input?.toList.foldl addOutputOnce a.preselected
  mint := x.asset?.toList.foldl (fun v (policy, name, q) => v.addAsset policy name q) a.mint
  redeemers := a.redeemers.insertMany x.redeemer?.toList
  withdrawals := a.withdrawals.insertMany x.withdrawal?.toList

/-! ### Edits that attach, and settings -/

namespace Edit

def attaches : Edit → Bool
  | addInput _ | collectFrom .. | mintAssets _ | mintAssetsWithRedeemer .. | addWithdrawal .. => true
  | _ => false

/-- Has to do with nothing that is attached. -/
def isSetting : Edit → Bool
  | consumeUtxo .. | updateRedeemers _ => false
  | e => !e.attaches

/-- What an edit attaches, if its arguments can be read. -/
def attachment? : Edit → Option Attachment
  | addInput u => some (.input u)
  | collectFrom u redeemer => some (.scriptInput u redeemer)
  | mintAssets u =>
    (mintedAsset u).toOption.map fun (policy, name) => .asset policy name u.quantity.toInt
  | mintAssetsWithRedeemer u redeemer =>
    (mintedAsset u).toOption.map fun (policy, name) =>
      .scriptAsset policy name u.quantity.toInt redeemer
  | addWithdrawal address amount redeemer =>
    address.stakeAddress.toOption.map (.withdrawal · amount redeemer)
  | _ => none

end Edit

variable {chain : Chain} {b : Builder} {e : Edit}

theorem apply_of_attachment? {x : Attachment} (attached : e.attachment? = some x) :
    e.apply chain b = .ok (b.withAttached (b.attached.attach x)) := by
  cases e with
  | addInput u | collectFrom u redeemer =>
    cases attached
    rfl
  | mintAssets u =>
    obtain ⟨asset, read, rfl⟩ := Option.map_eq_some_iff.1 attached
    show b.mintAssets u = _
    rw [mintAssets, ok_of_toOption read]
    rfl
  | mintAssetsWithRedeemer u redeemer =>
    obtain ⟨asset, read, rfl⟩ := Option.map_eq_some_iff.1 attached
    show b.mintAssetsWithRedeemer u redeemer = _
    rw [mintAssetsWithRedeemer, mintAssets, ok_of_toOption read]
    rfl
  | addWithdrawal address amount redeemer =>
    obtain ⟨stake, read, rfl⟩ := Option.map_eq_some_iff.1 attached
    show b.addWithdrawal address amount redeemer = _
    rw [addWithdrawal, ok_of_toOption read]
    cases redeemer <;> rfl
  | _ => cases attached

/-- An edit that could attach something but has nothing to attach is refused. -/
theorem refused_of_attachment? (attaches : e.attaches = true) (none : e.attachment? = none) :
    ∃ error, e.apply chain b = .error error := by
  cases e with
  | addInput u | collectFrom u redeemer => cases none
  | mintAssets u =>
    obtain ⟨error, refused⟩ := error_of_toOption (Option.map_eq_none_iff.1 none)
    refine ⟨error, ?_⟩
    show b.mintAssets u = _
    rw [mintAssets, refused]
    rfl
  | mintAssetsWithRedeemer u redeemer =>
    obtain ⟨error, refused⟩ := error_of_toOption (Option.map_eq_none_iff.1 none)
    refine ⟨error, ?_⟩
    show b.mintAssetsWithRedeemer u redeemer = _
    rw [mintAssetsWithRedeemer, refused]
    rfl
  | addWithdrawal address amount redeemer =>
    obtain ⟨error, refused⟩ := error_of_toOption (Option.map_eq_none_iff.1 none)
    refine ⟨.input error, ?_⟩
    show b.addWithdrawal address amount redeemer = _
    rw [addWithdrawal, refused]
    rfl
  | _ => cases attaches

/-! ### Settings -/

theorem addPayment_withAttached (a : Attached) (p : Payment) :
    (b.withAttached a).addPayment p = (b.addPayment p).map (·.withAttached a) :=
  bind_map fun _ => rfl

theorem ite_withAttached (p : Prop) [Decidable p] (b c : Builder) (a : Attached) :
    (if p then b.withAttached a else c.withAttached a) = (if p then b else c).withAttached a := by
  split <;> rfl

theorem attachDatum_withAttached (b : Builder) (a : Attached) (datum : PlutusData) :
    (b.withAttached a).attachDatum datum = (b.attachDatum datum).withAttached a := by
  unfold attachDatum
  exact ite_withAttached (b.datums.contains datum = true) b
    { b with datums := b.datums ++ [datum] } a

theorem addInputAddress_withAttached (b : Builder) (a : Attached) (address : Address) :
    (b.withAttached a).addInputAddress address = (b.addInputAddress address).withAttached a := by
  unfold addInputAddress
  exact ite_withAttached (b.inputAddresses.contains address = true) b
    { b with inputAddresses := b.inputAddresses ++ [address] } a

theorem attachScript_withAttached (b : Builder) (a : Attached) (script : Script) :
    (b.withAttached a).attachScript script = (b.attachScript script).withAttached a := by
  unfold attachScript
  exact ite_withAttached (b.scripts.any (·.hash = script.hash) = true) b
    { b with scripts := b.scripts ++ [script] } a

theorem addPaymentWithDatumHash_withAttached (a : Attached) (p : Payment) (datum : PlutusData) :
    (b.withAttached a).addPaymentWithDatumHash p datum =
      (b.addPaymentWithDatumHash p datum).map (·.withAttached a) := by
  unfold addPaymentWithDatumHash
  rw [addPayment_withAttached]
  cases b.addPayment { p with datum := some (.hash datum.hash) } with
  | error _ => rfl
  | ok next => exact congrArg Except.ok (attachDatum_withAttached next a datum)

theorem addKeyWitness_withAttached (a : Attached) (witness : KeyWitness) :
    (b.withAttached a).addKeyWitness witness = (b.addKeyWitness witness).map (·.withAttached a) := by
  unfold addKeyWitness
  rw [show (b.withAttached a).stage = b.stage from rfl]
  cases b.stage <;> rfl

theorem sign_withAttached (a : Attached) :
    (b.withAttached a).sign = b.sign.map (·.withAttached a) := by
  unfold sign
  rw [show (b.withAttached a).wallet = b.wallet from rfl]
  cases b.wallet with
  | none => rfl
  | some wallet =>
    refine bind_map fun hash => ?_
    cases wallet.sign hash with
    | error _ => rfl
    | ok witness => exact addKeyWitness_withAttached a witness

/-- A setting does the same whatever is attached, and leaves it attached. -/
theorem apply_withAttached (setting : e.isSetting = true) (a : Attached) :
    e.apply chain (b.withAttached a) = (e.apply chain b).map (·.withAttached a) := by
  cases e with
  | consumeUtxo | updateRedeemers | addInput | collectFrom | mintAssets | mintAssetsWithRedeemer
  | addWithdrawal => cases setting
  | addPayment p => exact addPayment_withAttached a p
  | addPaymentToText text lovelace units => exact bind_map fun _ => addPayment_withAttached a _
  | addPaymentWithDatumHash p datum => exact addPaymentWithDatumHash_withAttached a p datum
  | addInputAddress address => exact congrArg Except.ok (addInputAddress_withAttached b a address)
  | addInputAddressText text =>
    exact bind_map fun address => congrArg Except.ok (addInputAddress_withAttached b a address)
  | attachDatum datum => exact congrArg Except.ok (attachDatum_withAttached b a datum)
  | attachScript script => exact congrArg Except.ok (attachScript_withAttached b a script)
  | setChangeAddressText text => exact bind_map fun _ => rfl
  | addReferenceInputByRef ref => exact bind_map fun _ => rfl
  | addStakeCertificate certificate given => exact bind_map fun _ => rfl
  | addPaymentSigner address | addStakeSigner address | setMetadata metadata
  | addMetadata label datum =>
    simp only [Edit.apply, addPaymentSigner, addStakeSigner, setMetadata, addMetadata]
    split <;> rfl
  | addKeyWitness witness => exact addKeyWitness_withAttached a witness
  | sign => exact sign_withAttached a
  | signWithSeed seed => exact bind_map fun _ => addKeyWitness_withAttached a _
  | setWallet | setConfig | loadUtxos | setChangeAddress | addReferenceInput | addRequiredSigner
  | setTtl | setValidityStart | setFee | setFeePadding | setCollateralAmount | addCollateral
  | disableEstimation | addCertificate => rfl

theorem attached_of_setting {next : Builder} (setting : e.isSetting = true)
    (h : e.apply chain b = .ok next) : next.attached = b.attached := by
  have same : e.apply chain (b.withAttached b.attached) =
      (e.apply chain b).map (·.withAttached b.attached) := apply_withAttached setting b.attached
  rw [show b.withAttached b.attached = b from rfl, h] at same
  rw [Except.ok.inj same]
  rfl

/-! ### Rows of edits -/

/-- The builder after some edits, whichever of them are refused. -/
abbrev edited (chain : Chain) (b : Builder) (edits : List Edit) : Builder :=
  run chain b (edits.map .edit)

theorem edited_cons (chain : Chain) (b : Builder) (e : Edit) (rest : List Edit) :
    edited chain b (e :: rest) = edited chain (step chain b (.edit e)).2 rest := rfl

theorem step_of_setting (setting : e.isSetting = true) (a : Attached) :
    (step chain (b.withAttached a) (.edit e)).2 = (step chain b (.edit e)).2.withAttached a := by
  unfold step
  dsimp only
  rw [apply_withAttached setting]
  cases e.apply chain b <;> rfl

theorem edited_withAttached {settings : List Edit} (all : ∀ e ∈ settings, e.isSetting = true)
    (a : Attached) :
    edited chain (b.withAttached a) settings = (edited chain b settings).withAttached a := by
  induction settings generalizing b with
  | nil => rfl
  | cons e rest ih =>
    rw [edited_cons, edited_cons, step_of_setting (all e (.head _))]
    exact ih fun e mem => all e (.tail _ mem)

theorem step_of_attaches (attaches : e.attaches = true) :
    (step chain b (.edit e)).2 =
      b.withAttached (e.attachment?.toList.foldl Attached.attach b.attached) := by
  unfold step
  dsimp only
  cases attached : e.attachment? with
  | none =>
    obtain ⟨error, refused⟩ : ∃ error, e.apply chain b = .error error :=
      refused_of_attachment? attaches attached
    rw [refused]
    rfl
  | some x =>
    rw [apply_of_attachment? attached]
    rfl

theorem attachment?_of_setting (setting : e.isSetting = true) : e.attachment? = none := by
  cases e <;> first | rfl | cases setting

theorem attaches_of_setting (setting : e.isSetting = true) : e.attaches = false := by
  cases e <;> first | rfl | cases setting

theorem Edit.attaches_or (e : Edit) :
    e.attaches = true ∨ e.isSetting = true ∨ (∃ u payments, e = .consumeUtxo u payments) ∨
      ∃ updates, e = .updateRedeemers updates := by
  cases e with
  | consumeUtxo u payments => exact .inr (.inr (.inl ⟨u, payments, rfl⟩))
  | updateRedeemers updates => exact .inr (.inr (.inr ⟨updates, rfl⟩))
  | addInput | collectFrom | mintAssets | mintAssetsWithRedeemer | addWithdrawal => exact .inl rfl
  | _ => exact .inr (.inl rfl)

/-- All settings first, and then all that is attached. -/
theorem edited_eq {edits : List Edit} (each : ∀ e ∈ edits, e.attaches = true ∨ e.isSetting = true) :
    edited chain b edits =
      (edited chain b (edits.filter fun e => !e.attaches)).withAttached
        ((edits.filterMap Edit.attachment?).foldl Attached.attach b.attached) := by
  induction edits generalizing b with
  | nil => rfl
  | cons e rest ih =>
    have others := fun e mem => each e (.tail _ mem)
    have settings : ∀ e ∈ rest.filter fun e => !e.attaches, e.isSetting = true := by
      intro e mem
      obtain ⟨listed, plain⟩ := List.mem_filter.1 mem
      exact (others e listed).resolve_left (by simpa using plain)
    rw [edited_cons, ih others]
    rcases each e (.head _) with attaches | setting
    · rw [step_of_attaches attaches, edited_withAttached settings,
        List.filter_cons_of_neg (by simp [attaches])]
      cases attached : e.attachment? with
      | none => rw [List.filterMap_cons_none attached]; rfl
      | some x => rw [List.filterMap_cons_some attached]; rfl
    · have kept : (step chain b (.edit e)).2.attached = b.attached := by
        unfold step
        dsimp only
        cases applied : e.apply chain b with
        | error _ => rfl
        | ok next => exact attached_of_setting setting applied
      rw [List.filter_cons_of_pos (by simp [attaches_of_setting setting]), edited_cons, kept,
        List.filterMap_cons_none (attachment?_of_setting setting)]

end ConwayTx.Builder
