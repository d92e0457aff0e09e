import ConwayTx.Proofs.Cbor.Parts
import ConwayTx.Script

/-!
# Scripts read back

Native scripts differ in the number in front (`NativeScript.toCbor_inj`), and a script that an output
carries is read back through the byte string it travels in (`Script.toCbor_inj`). What is hashed of a
script is of no other one (`Script.hashedBytes_inj`).
-/

namespace ConwayTx

namespace NativeScript

def kind : NativeScript → UInt8
  | signedBy _ => 0
  | all _ => 1
  | any _ => 2
  | atLeast _ _ => 3
  | notBefore _ => 4
  | notAfter _ => 5

def items : NativeScript → List Cbor
  | signedBy key => [.bytes key.bytes]
  | all scripts | any scripts => [.array (allToCbor scripts)]
  | atLeast required scripts => [.unsigned required.toUInt64, .array (allToCbor scripts)]
  | notBefore slot | notAfter slot => [.unsigned slot]

theorem toCbor_eq (a : NativeScript) : a.toCbor = .array (.small a.kind :: a.items) := by
  cases a <;> rfl

mutual

theorem toCbor_inj {a b : NativeScript} (same : a.toCbor = b.toCbor) : a = b := by
  rw [toCbor_eq, toCbor_eq] at same
  obtain ⟨kinds, parts⟩ := List.cons.inj (Cbor.array.inj same)
  replace kinds : a.kind = b.kind := Cbor.small_inj kinds
  cases a with
  | signedBy key =>
    cases b with
    | signedBy key' => exact congrArg _ (Cbor.digest_inj (List.cons.inj parts).1)
    | _ => simp [kind] at kinds
  | all scripts =>
    cases b with
    | all scripts' => exact congrArg _ (allToCbor_inj (Cbor.array.inj (List.cons.inj parts).1))
    | _ => simp [kind] at kinds
  | any scripts =>
    cases b with
    | any scripts' => exact congrArg _ (allToCbor_inj (Cbor.array.inj (List.cons.inj parts).1))
    | _ => simp [kind] at kinds
  | atLeast required scripts =>
    cases b with
    | atLeast required' scripts' =>
      obtain ⟨counts, scripts⟩ := List.cons.inj parts
      obtain ⟨parts, _⟩ := List.cons.inj scripts
      exact congrArg₂ _ (Cbor.index_inj counts) (allToCbor_inj (Cbor.array.inj parts))
    | _ => simp [kind] at kinds
  | notBefore slot =>
    cases b with
    | notBefore slot' => exact congrArg _ (Cbor.unsigned.inj (List.cons.inj parts).1)
    | _ => simp [kind] at kinds
  | notAfter slot =>
    cases b with
    | notAfter slot' => exact congrArg _ (Cbor.unsigned.inj (List.cons.inj parts).1)
    | _ => simp [kind] at kinds
termination_by structural a

theorem allToCbor_inj {xs ys : List NativeScript} (same : allToCbor xs = allToCbor ys) :
    xs = ys := by
  cases xs with
  | nil =>
    cases ys with
    | nil => rfl
    | cons y ys => cases same
  | cons x xs =>
    cases ys with
    | nil => cases same
    | cons y ys =>
      obtain ⟨first, others⟩ := List.cons.inj same
      exact congrArg₂ _ (toCbor_inj first) (allToCbor_inj others)
termination_by structural xs

end

end NativeScript

namespace Script

theorem scriptTag_inj {v w : PlutusVersion} (same : v.scriptTag = w.scriptTag) : v = w := by
  revert same
  cases v <;> cases w <;> decide

/-- No language has the tag of native scripts. -/
theorem scriptTag_ne_zero (v : PlutusVersion) : v.scriptTag ≠ 0 := by
  cases v <;> decide

theorem taggedCbor_inj {a b : Script} (same : a.taggedCbor = b.taggedCbor) : a = b := by
  cases a with
  | native script =>
    cases b with
    | native script' =>
      obtain ⟨_, parts⟩ := List.cons.inj (Cbor.array.inj same)
      exact congrArg _ (NativeScript.toCbor_inj (List.cons.inj parts).1)
    | plutus script' =>
      have tags := Cbor.small_inj (List.cons.inj (Cbor.array.inj same)).1
      exact absurd tags.symm (scriptTag_ne_zero _)
  | plutus script =>
    cases b with
    | native script' =>
      have tags := Cbor.small_inj (List.cons.inj (Cbor.array.inj same)).1
      exact absurd tags (scriptTag_ne_zero _)
    | plutus script' =>
      obtain ⟨version, content⟩ := script
      obtain ⟨version', content'⟩ := script'
      obtain ⟨tags, parts⟩ := List.cons.inj (Cbor.array.inj same)
      obtain rfl : version = version' := scriptTag_inj (Cbor.small_inj tags)
      obtain rfl : content = content' := Cbor.bytes.inj (List.cons.inj parts).1
      rfl

theorem toCbor_inj {a b : Script} (short : a.toCbor.length < UInt64.size)
    (same : a.toCbor = b.toCbor) : a = b :=
  taggedCbor_inj (Cbor.tagged_bytes_encode_inj short same)

/-! ### Bytes -/

/-- The tag in front tells the languages apart. Plutus scripts are hashed as they are, so only native
ones are read back. -/
theorem hashedBytes_inj {a b : Script} (short : a.hashedBytes.length < UInt64.size)
    (same : a.hashedBytes = b.hashedBytes) : a = b := by
  cases a with
  | native script =>
    cases b with
    | native script' =>
      have within : script.toCbor.length < UInt64.size := (Nat.lt_succ_self _).trans short
      exact congrArg _ (NativeScript.toCbor_inj (Cbor.encode_inj within (List.cons.inj same).2))
    | plutus script' => exact absurd (List.cons.inj same).1.symm (scriptTag_ne_zero _)
  | plutus script =>
    cases b with
    | native script' => exact absurd (List.cons.inj same).1 (scriptTag_ne_zero _)
    | plutus script' =>
      obtain ⟨version, content⟩ := script
      obtain ⟨version', content'⟩ := script'
      obtain ⟨tags, contents⟩ := List.cons.inj same
      obtain rfl : version = version' := scriptTag_inj tags
      obtain rfl : content = content' := contents
      rfl

theorem hashedBytes_eq_iff {a b : Script} (short : a.hashedBytes.length < UInt64.size) :
    a.hashedBytes = b.hashedBytes ↔ a = b :=
  ⟨hashedBytes_inj short, congrArg _⟩

theorem toCbor_encode_eq_iff {a b : Script} (short : a.toCbor.length < UInt64.size) :
    a.toCbor.encode = b.toCbor.encode ↔ a = b :=
  ⟨fun same => toCbor_inj short (Cbor.encode_inj short same), fun same => by rw [same]⟩

/-- As a reference a script takes more bytes than are hashed of it. -/
theorem length_hashedBytes_lt (s : Script) : s.hashedBytes.length < s.toCbor.length := by
  have inside : s.taggedCbor.length ≤ s.toCbor.length :=
    (Cbor.content_le (.bytes s.taggedCbor.encode)).trans (Cbor.content_le s.toCbor)
  refine Nat.lt_of_lt_of_le ?_ inside
  have language (tag : UInt8) := (Cbor.small tag).length_pos
  cases s with
  | native script =>
    have kind := language 0
    rw [taggedCbor, Cbor.length_array]
    show script.toCbor.length + 1 < 1 + ((Cbor.small 0).length + (script.toCbor.length + 0))
    omega
  | plutus script =>
    have kind := language script.version.scriptTag
    have content := Cbor.content_le (.bytes script.bytes)
    rw [taggedCbor, Cbor.length_array]
    show script.bytes.length + 1 < 1 + (_ + ((Cbor.bytes script.bytes).length + 0))
    rw [Cbor.content] at content
    omega

end Script

end ConwayTx
