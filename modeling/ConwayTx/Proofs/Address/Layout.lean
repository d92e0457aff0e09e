import ConwayTx.Proofs.Address

/-!
# The layout of addresses

`Layout` says what stands where in the bytes of an address. It leaves open which networks are known,
which rows of digits are numbers and what may stand behind the parts. Reading admits the widest
choice (`exists_ofBytes_iff`), and addresses are written by the narrowest (`wellFormed_iff`): what
lies between is read and written differently (`ofBytes_keeps_iff`).
-/

namespace ConwayTx

open Varint (Digits Shortest value)

/-! ### Parts -/

theorem Digest.exists_ofBytes?_iff {size : ℕ} {bytes : Bytes} :
    (∃ d : Digest size, ofBytes? bytes = some d) ↔ bytes.length = size := by
  unfold ofBytes?
  by_cases exact : bytes.length = size
  · rw [dif_pos exact]
    simp [exact]
  · rw [dif_neg exact]
    simp [exact]

theorem Network.number_lt (network : Network) : network.number < 2 := by
  cases network <;> decide

theorem Network.number_ofNumber {n : UInt8} (known : n < 2) : (ofNumber n).number = n := by
  rcases Address.zero_or_one known with rfl | rfl <;> rfl

theorem Credential.kind_ofKind {kind : UInt8} (two : kind < 2) (hash : Digest 28) :
    (ofKind kind hash).kind = kind := by
  rcases Address.zero_or_one two with rfl | rfl <;> rfl

theorem Credential.hash_ofKind (kind : UInt8) (hash : Digest 28) :
    (ofKind kind hash).hash = hash := by
  unfold ofKind
  split <;> rfl

theorem ChainPointer.exists_ofBytes?_iff {bytes : Bytes} :
    (∃ p, ofBytes? bytes = some p) ↔ ∃ slot txIndex certIndex rest, Digits slot ∧ Digits txIndex ∧
      Digits certIndex ∧ bytes = slot ++ (txIndex ++ (certIndex ++ rest)) := by
  constructor
  · rintro ⟨p, read⟩
    obtain ⟨⟨n, rest⟩, first, read⟩ := Option.bind_eq_some_iff.1 read
    obtain ⟨⟨n', rest'⟩, second, read⟩ := Option.bind_eq_some_iff.1 read
    obtain ⟨⟨n'', rest''⟩, third, _⟩ := Option.bind_eq_some_iff.1 read
    obtain ⟨slot, digits, rfl, _⟩ := Varint.decode?_eq_some_iff.1 first
    obtain ⟨txIndex, digits', rfl, _⟩ := Varint.decode?_eq_some_iff.1 second
    obtain ⟨certIndex, digits'', rfl, _⟩ := Varint.decode?_eq_some_iff.1 third
    exact ⟨slot, txIndex, certIndex, rest'', digits, digits', digits'', rfl⟩
  · rintro ⟨slot, txIndex, certIndex, rest, digits, digits', digits'', rfl⟩
    have read {number : Bytes} (h : Digits number) (rest : Bytes) :
        Varint.decode? (number ++ rest) = some (.ofNat (value number), rest) :=
      Varint.decode?_eq_some_iff.2 ⟨number, h, rfl, rfl⟩
    refine ⟨⟨.ofNat (value slot), .ofNat (value txIndex), .ofNat (value certIndex)⟩, ?_⟩
    simp only [ofBytes?, read digits, read digits', read digits'', Option.bind_eq_bind,
      Option.bind_some]
    rfl

/-! ### Delegations -/

namespace Delegation

/-- What follows the payment credential, by the delegation bits of the header. -/
inductive Layout (number surplus : Bytes → Prop) : UInt8 → Bytes → Prop
  | credential {bits : UInt8} {hash : Bytes} (two : bits < 2) (length : hash.length = 28) :
      Layout number surplus bits hash
  | pointer {slot txIndex certIndex rest : Bytes} (first : number slot) (second : number txIndex)
      (third : number certIndex) (ends : surplus rest) :
      Layout number surplus 2 (slot ++ (txIndex ++ (certIndex ++ rest)))
  | none {rest : Bytes} (ends : surplus rest) : Layout number surplus 3 rest

theorem layout_toBytes (d : Delegation) : Layout Shortest (· = []) d.toBytes.1 d.toBytes.2 := by
  cases d with
  | none => exact .none rfl
  | credential stake => exact .credential (Address.kind_lt stake) stake.hash.length_eq
  | pointer position =>
    have written : position.toBytes = Varint.encode position.slot ++
        (Varint.encode position.txIndex ++ (Varint.encode position.certIndex ++ [])) := by
      rw [ChainPointer.toBytes, List.append_nil, List.append_assoc]
    show Layout Shortest (· = []) 2 position.toBytes
    rw [written]
    exact .pointer (Varint.shortest_encode _) (Varint.shortest_encode _)
      (Varint.shortest_encode _) rfl

theorem exists_of_layout {bits : UInt8} {tail : Bytes} (h : Layout Shortest (· = []) bits tail) :
    ∃ d : Delegation, d.toBytes = (bits, tail) := by
  cases h with
  | credential two length =>
    refine ⟨.credential (.ofKind bits ⟨tail, length⟩), ?_⟩
    rw [toBytes, Credential.kind_ofKind two, Credential.hash_ofKind]
  | none ends =>
    subst ends
    exact ⟨.none, rfl⟩
  | @pointer slot txIndex certIndex rest first second third ends =>
    subst ends
    refine ⟨.pointer ⟨.ofNat (value slot), .ofNat (value txIndex), .ofNat (value certIndex)⟩, ?_⟩
    rw [toBytes, ChainPointer.toBytes, Varint.encode_value first, Varint.encode_value second,
      Varint.encode_value third, List.append_nil, List.append_assoc]

variable {number surplus : Bytes → Prop} {bits : UInt8} {tail : Bytes}

theorem layout_credential_iff (two : bits < 2) :
    Layout number surplus bits tail ↔ tail.length = 28 := by
  constructor
  · intro h
    cases h with
    | credential _ length => exact length
    | pointer => exact absurd two (by decide)
    | none => exact absurd two (by decide)
  · exact .credential two

theorem layout_pointer_iff :
    Layout number surplus 2 tail ↔ ∃ slot txIndex certIndex rest, number slot ∧ number txIndex ∧
      number certIndex ∧ surplus rest ∧ tail = slot ++ (txIndex ++ (certIndex ++ rest)) := by
  constructor
  · intro h
    cases h with
    | credential two _ => exact absurd two (by decide)
    | pointer first second third ends => exact ⟨_, _, _, _, first, second, third, ends, rfl⟩
  · rintro ⟨slot, txIndex, certIndex, rest, first, second, third, ends, rfl⟩
    exact .pointer first second third ends

theorem layout_none_iff : Layout number surplus 3 tail ↔ surplus tail := by
  constructor
  · intro h
    cases h with
    | credential two _ => exact absurd two (by decide)
    | none ends => exact ends
  · exact .none

theorem delegationOf_credential {kind : UInt8} (two : kind >>> 1 < 2) (length : ℕ) :
    Address.delegationOf kind length tail =
      match Digest.ofBytes? tail with
      | some hash => .ok (.credential (.ofKind (kind >>> 1) hash))
      | Option.none => .error (.baseLength length) := by
  unfold Address.delegationOf
  rcases Address.zero_or_one two with zero | one
  · rw [zero]
    rfl
  · rw [one]
    rfl

/-- Numbers of any length are read, and bytes behind a pointer or behind no delegation are not
looked at. -/
theorem exists_delegationOf_iff {kind : UInt8} (small : kind ≤ 7) (length : ℕ) (tail : Bytes) :
    (∃ d, Address.delegationOf kind length tail = .ok d) ↔
      Layout Digits (fun _ => True) (kind >>> 1) tail := by
  have four : ∀ k : UInt8, k ≤ 7 → k >>> 1 < 2 ∨ k >>> 1 = 2 ∨ k >>> 1 = 3 := by decide +kernel
  rcases four kind small with two | pointed | alone
  · rw [layout_credential_iff two, delegationOf_credential two, ← Digest.exists_ofBytes?_iff]
    cases (Digest.ofBytes? tail : Option (Digest 28)) <;> simp
  · rw [pointed, layout_pointer_iff, Address.delegationOf, pointed]
    simp only [true_and]
    rw [← ChainPointer.exists_ofBytes?_iff]
    cases ChainPointer.ofBytes? tail <;> simp
  · rw [alone, layout_none_iff, Address.delegationOf, alone]
    exact iff_of_true ⟨_, rfl⟩ trivial

end Delegation

/-! ### Addresses -/

namespace Address

/-- The header, the hash of the first credential and what the kind in the header calls for. -/
inductive Layout (network : UInt8 → Prop) (number surplus : Bytes → Prop) : Bytes → Prop
  | stake {header : UInt8} {hash : Bytes} (kind : (14 : UInt8) ≤ header >>> 4)
      (known : network (header &&& 0x0f)) (length : hash.length = 28) :
      Layout network number surplus (header :: hash)
  | payment {header : UInt8} {hash tail : Bytes} (kind : header >>> 4 ≤ 7)
      (known : network (header &&& 0x0f)) (length : hash.length = 28)
      (delegation : Delegation.Layout number surplus (header >>> 4 >>> 1) tail) :
      Layout network number surplus (header :: (hash ++ tail))

/-- One of the two networks, numbers in shortest form, and nothing behind the parts. -/
def WellFormed : Bytes → Prop := Layout (· < 2) Shortest (· = [])

/-- Any network, any digits, and behind a pointer or behind no delegation any bytes. -/
def Readable : Bytes → Prop := Layout (fun _ => True) Digits (fun _ => True)

theorem readable_of_ofBytes {d : Bytes} {a : Address} (read : ofBytes d = .ok a) : Readable d := by
  cases d with
  | nil => cases read
  | cons header content =>
    simp only [ofBytes] at read
    by_cases stake : header >>> 4 = 14 ∨ header >>> 4 = 15
    · rw [if_pos stake] at read
      cases known : (Digest.ofBytes? content : Option (Digest 28)) with
      | none =>
        simp only [known] at read
        cases read
      | some hash =>
        refine .stake ?_ trivial (Digest.exists_ofBytes?_iff.1 ⟨hash, known⟩)
        rcases stake with kind | kind <;> rw [kind] <;> decide
    · rw [if_neg stake] at read
      by_cases small : header >>> 4 ≤ 7
      · rw [if_pos small] at read
        cases known : (Digest.ofBytes? (content.take 28) : Option (Digest 28)) with
        | none =>
          simp only [known] at read
          cases read
        | some hash =>
          simp only [known] at read
          cases tail : delegationOf (header >>> 4) (header :: content).length
              (content.drop 28) with
          | error fault =>
            rw [tail] at read
            cases read
          | ok delegation =>
            have follows := (Delegation.exists_delegationOf_iff small _ _).1 ⟨delegation, tail⟩
            have layout : Readable (header :: (content.take 28 ++ content.drop 28)) :=
              .payment small trivial (Digest.exists_ofBytes?_iff.1 ⟨hash, known⟩) follows
            rwa [List.take_append_drop] at layout
      · rw [if_neg small] at read
        cases read

theorem ofBytes_of_readable {d : Bytes} (h : Readable d) : ∃ a, ofBytes d = .ok a := by
  cases h with
  | @stake header hash kind _ length =>
    have high : ∀ b : UInt8, (14 : UInt8) ≤ b >>> 4 → b >>> 4 = 14 ∨ b >>> 4 = 15 := by
      decide +kernel
    obtain ⟨digest, known⟩ := Digest.exists_ofBytes?_iff.2 length
    exact ⟨_, ofBytes_stake (high header kind) known⟩
  | @payment header hash tail kind _ length delegation =>
    obtain ⟨digest, known⟩ := Digest.exists_ofBytes?_iff.2 length
    have front : (hash ++ tail).take 28 = hash := List.take_left' length
    have back : (hash ++ tail).drop 28 = tail := List.drop_left' length
    obtain ⟨d, follows⟩ := (Delegation.exists_delegationOf_iff kind
      (header :: (hash ++ tail)).length tail).2 delegation
    rw [← front] at known
    refine ⟨_, ofBytes_payment kind known (d := d) ?_⟩
    rw [back]
    exact follows

theorem exists_ofBytes_iff {d : Bytes} : (∃ a, ofBytes d = .ok a) ↔ Readable d := by
  constructor
  · rintro ⟨a, read⟩
    exact readable_of_ofBytes read
  · exact ofBytes_of_readable

theorem toBytes_payment (network : Network) (credential : Credential) (delegation : Delegation) :
    (payment network credential delegation).toBytes =
      (network.number ||| (credential.kind <<< 4) ||| (delegation.toBytes.1 <<< 5)) ::
        (credential.hash.bytes ++ delegation.toBytes.2) :=
  rfl

theorem wellFormed_toBytes (a : Address) : WellFormed a.toBytes := by
  cases a with
  | stake address =>
    obtain ⟨kind, networks, _⟩ :=
      stakeHeader_parts address.network (kind_lt address.credential)
    refine .stake ?_ ?_ address.credential.hash.length_eq
    · rcases kind with kind | kind <;> rw [kind] <;> decide
    · rw [networks]
      exact address.network.number_lt
  | payment network credential delegation =>
    obtain ⟨networks, small, _, delegations⟩ :=
      header_parts network (kind_lt credential) (bits_lt delegation)
    rw [toBytes_payment]
    refine .payment small ?_ credential.hash.length_eq ?_
    · rw [networks]
      exact network.number_lt
    · rw [delegations]
      exact delegation.layout_toBytes

/-- The header of a reward address is put together from its parts. -/
theorem stakeHeader_eq : ∀ header : UInt8, (14 : UInt8) ≤ header >>> 4 → header &&& 0x0f < 2 →
    (0xe0 : UInt8) ||| ((header >>> 4 &&& 1) <<< 4) ||| (header &&& 0x0f) = header := by
  decide +kernel

theorem header_eq : ∀ header : UInt8, header >>> 4 ≤ 7 → header &&& 0x0f < 2 →
    (header &&& (0x0f : UInt8)) ||| ((header >>> 4 &&& 1) <<< 4) |||
      ((header >>> 4 >>> 1) <<< 5) = header := by
  decide +kernel

theorem low_lt (b : UInt8) : b &&& 1 < 2 := by
  revert b
  decide +kernel

theorem exists_of_wellFormed {d : Bytes} (h : WellFormed d) : ∃ a : Address, a.toBytes = d := by
  cases h with
  | @stake header hash kind known length =>
    refine ⟨.stake ⟨.ofNumber (header &&& 0x0f), .ofKind (header >>> 4 &&& 1) ⟨hash, length⟩⟩, ?_⟩
    rw [toBytes, StakeAddress.toBytes, Network.number_ofNumber known,
      Credential.kind_ofKind (low_lt _), Credential.hash_ofKind, stakeHeader_eq header kind known]
  | @payment header hash tail kind known length layout =>
    obtain ⟨delegation, written⟩ := Delegation.exists_of_layout layout
    refine ⟨.payment (.ofNumber (header &&& 0x0f)) (.ofKind (header >>> 4 &&& 1) ⟨hash, length⟩)
      delegation, ?_⟩
    rw [toBytes_payment, written, Network.number_ofNumber known,
      Credential.kind_ofKind (low_lt _), Credential.hash_ofKind, header_eq header kind known]

theorem wellFormed_iff {d : Bytes} : WellFormed d ↔ ∃ a : Address, a.toBytes = d := by
  constructor
  · exact exists_of_wellFormed
  · rintro ⟨a, rfl⟩
    exact wellFormed_toBytes a

theorem WellFormed.readable {d : Bytes} (h : WellFormed d) : Readable d := by
  obtain ⟨a, rfl⟩ := wellFormed_iff.1 h
  exact readable_of_ofBytes (ofBytes_toBytes a)

/-! ### Reading and writing -/

theorem bytes_roundTrip :
    (∀ a : Address, ofBytes a.toBytes = .ok a) ∧ Function.Injective toBytes :=
  ⟨ofBytes_toBytes, fun _ _ same => toBytes_inj same⟩

/-- Which bytes are read, and which of these are written again as they were. -/
theorem ofBytes_keeps_iff (d : Bytes) :
    ((∃ a, ofBytes d = .ok a) ↔ Readable d) ∧ (WellFormed d → Readable d) ∧
      ∀ a, ofBytes d = .ok a → (a.toBytes = d ↔ WellFormed d) := by
  refine ⟨exists_ofBytes_iff, WellFormed.readable, ?_⟩
  intro a read
  constructor
  · rintro rfl
    exact wellFormed_toBytes a
  · intro formed
    obtain ⟨b, rfl⟩ := wellFormed_iff.1 formed
    rw [ofBytes_toBytes] at read
    rw [Except.ok.inj read]

theorem ofBytes_keeps_iff_pointer :
    let d : Bytes := 0x41 :: List.replicate 28 7 ++ [0x81, 0x00, 0x02, 0x7f]
    let a : Address := .payment .mainnet (.key ⟨List.replicate 28 7, rfl⟩) (.pointer ⟨128, 2, 127⟩)
    ofBytes d = .ok a ∧ WellFormed d := by
  intro d a
  have read : ofBytes d = .ok a := by decide +kernel
  exact ⟨read, ((ofBytes_keeps_iff d).2.2 a read).1 (by decide +kernel)⟩

/-- A byte behind an address without delegation, a third network, a zero digit in front of a number
and a number beyond a word are read, and are not written again. -/
theorem ofBytes_keeps_not :
    let hash : Bytes := List.replicate 28 0
    let changed (d : Bytes) : Prop := ∃ a, ofBytes d = .ok a ∧ a.toBytes ≠ d
    changed (0x60 :: hash ++ [0xff]) ∧ changed (0x62 :: hash) ∧
      changed (0x40 :: hash ++ [0x80, 0, 0, 0]) ∧
      changed (0x40 :: hash ++ 0x82 :: List.replicate 8 0x80 ++ [0, 0, 0]) := by
  intro hash changed
  refine ⟨⟨.enterprise .testnet (.key .zero), ?_, ?_⟩, ⟨.enterprise .testnet (.key .zero), ?_, ?_⟩,
    ⟨.payment .testnet (.key .zero) (.pointer ⟨0, 0, 0⟩), ?_, ?_⟩,
    ⟨.payment .testnet (.key .zero) (.pointer ⟨0, 0, 0⟩), ?_, ?_⟩⟩ <;> decide +kernel

end Address

end ConwayTx
