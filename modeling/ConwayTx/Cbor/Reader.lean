import ConwayTx.Cbor

/-!
# Stepping over CBOR items

`skip?` steps over one item without building it. It reads heads (`Token`) one after the other and
keeps account of what is still to come (`Pending`); every head consumes a byte. Stop bytes out of
place are not refused.
-/

namespace ConwayTx.Cbor

structure Header where
  major : Nat
  /-- `none` for an indefinite length. -/
  argument : Option Nat

/-- The header of the next item. Widths 28 to 30 are not in use. -/
def header? : Bytes → Option (Header × Bytes)
  | [] => none
  | b :: rest =>
    let major := b.toNat / 32
    let info := b.toNat % 32
    let wide (width : Nat) :=
      if width ≤ rest.length then
        some (⟨major, some (Bytes.ofBigEndian (rest.take width))⟩, rest.drop width)
      else none
    if info < 24 then some (⟨major, some info⟩, rest)
    else if info = 24 then wide 1
    else if info = 25 then wide 2
    else if info = 26 then wide 4
    else if info = 27 then wide 8
    else if info = 31 then some (⟨major, none⟩, rest)
    else none

theorem length_header? {bytes rest : Bytes} {h : Header} (found : header? bytes = some (h, rest)) :
    rest.length < bytes.length := by
  cases bytes with
  | nil => simp [header?] at found
  | cons b tail =>
    simp only [header?] at found
    grind

def dropExactly? (n : Nat) (bytes : Bytes) : Option Bytes :=
  if n ≤ bytes.length then some (bytes.drop n) else none

def isText (bytes : Bytes) : Bool := (String.fromUTF8? ⟨bytes.toArray⟩).isSome

/-- The pieces of a string of indefinite length, up to the stop byte. Every piece is a string of
the same type and has a length. -/
def skipPieces? (major : Nat) (bytes : Bytes) : Option Bytes :=
  match bytes with
  | [] => none
  | b :: tail =>
    if b = stop then some tail
    else
      match _found : header? (b :: tail) with
      | some (⟨m, some n⟩, rest) =>
        if m = major ∧ n ≤ rest.length ∧ (major = 3 → isText (rest.take n)) then
          skipPieces? major (rest.drop n)
        else none
      | _ => none
termination_by bytes.length
decreasing_by
  have := length_header? _found
  simp only [List.length_drop]; omega

/-! ### Heads -/

/-- The head of an item, with its content unless it is a container. -/
inductive Token where
  | leaf
  /-- Stands before an item. -/
  | tag
  | container (items : Nat)
  /-- A container up to its stop byte. -/
  | openContainer
  | stop
deriving DecidableEq

def token? (bytes : Bytes) : Option (Token × Bytes) :=
  match header? bytes with
  | none => none
  | some (⟨0, some _⟩, rest) => some (.leaf, rest)
  | some (⟨1, some _⟩, rest) => some (.leaf, rest)
  | some (⟨2, some n⟩, rest) => (dropExactly? n rest).map (.leaf, ·)
  | some (⟨2, none⟩, rest) => (skipPieces? 2 rest).map (.leaf, ·)
  | some (⟨3, some n⟩, rest) =>
    if isText (rest.take n) then (dropExactly? n rest).map (.leaf, ·) else none
  | some (⟨3, none⟩, rest) => (skipPieces? 3 rest).map (.leaf, ·)
  | some (⟨4, some n⟩, rest) => some (.container n, rest)
  | some (⟨4, none⟩, rest) => some (.openContainer, rest)
  | some (⟨5, some n⟩, rest) => some (.container (2 * n), rest)
  | some (⟨5, none⟩, rest) => some (.openContainer, rest)
  | some (⟨6, some _⟩, rest) => some (.tag, rest)
  | some (⟨7, some _⟩, rest) => some (.leaf, rest)
  | some (⟨7, none⟩, rest) => some (.stop, rest)
  | some _ => none

theorem length_skipPieces? {major : Nat} {bytes rest : Bytes}
    (h : skipPieces? major bytes = some rest) : rest.length < bytes.length := by
  fun_induction skipPieces? major bytes with
  | case1 => simp at h
  | case2 tail => simp at h; simp [← h]
  | case3 b tail _ m n left found _ ih =>
    have := length_header? found
    have := ih h
    simp only [List.length_drop] at this
    omega
  | case4 => simp at h
  | case5 => simp at h

theorem length_token? {bytes rest : Bytes} {t : Token} (h : token? bytes = some (t, rest)) :
    rest.length < bytes.length := by
  unfold token? at h
  split at h
  · cases h
  all_goals
    rename_i found
    try have := length_header? found
    try simp only [Option.map_eq_some_iff, dropExactly?, Prod.mk.injEq, Option.some.injEq] at h
    grind [→ length_skipPieces?]

/-! ### What is still to come -/

/-- What is left of a container: a number of items, or all up to the stop byte. -/
inductive Level where
  | items (n : Nat)
  | untilStop
deriving DecidableEq

/-- Numbers of items and of stop bytes suffice until a container without a length stands before
further items of one with a length; levels, the innermost first, tell them apart from there on. -/
inductive Pending where
  | counts (items stops : Nat)
  | levels (inner : List Level)
deriving DecidableEq

namespace Pending

/-- The levels after an item. The innermost counts the items that follow the next one. -/
def advance (levels : List Level) : Pending :=
  match levels.dropWhile (· = .items 0) with
  | [] => .counts 0 0
  | .items n :: outer => .levels (.items (n - 1) :: outer)
  | .untilStop :: outer => .levels (.untilStop :: outer)

/-- Among counted items a stop byte closes a container wherever it stands; among levels it is an item
unless the innermost one waits for it. -/
def after : Pending → Token → Pending
  | pending, .tag => pending
  | counts items stops, .leaf => counts (items - 1) stops
  | counts items stops, .container n => counts (items + n - 1) stops
  | counts items stops, .openContainer =>
    if items < 2 then counts (items - 1) (stops + 1)
    else levels (.untilStop :: .items (items - 1) :: List.replicate stops .untilStop)
  | counts items stops, .stop => counts (items - 1) (stops - 1)
  | levels inner, .leaf => advance inner
  | levels inner, .container n => advance (.items n :: inner)
  | levels inner, .openContainer => advance (.untilStop :: inner)
  | levels (.untilStop :: outer), .stop => advance outer
  | levels inner, .stop => advance inner

end Pending

def skipAll? (pending : Pending) (bytes : Bytes) : Option Bytes :=
  if pending = .counts 0 0 then some bytes
  else
    match _found : token? bytes with
    | some (t, rest) => skipAll? (pending.after t) rest
    | none => none
termination_by bytes.length
decreasing_by exact length_token? _found

/-- The bytes after the next item. -/
def skip? (bytes : Bytes) : Option Bytes := skipAll? (.counts 1 0) bytes

/-- The bytes of the first item of an array. What follows them is not looked at. -/
def firstOfArray? (bytes : Bytes) : Option Bytes :=
  match header? bytes with
  | some (⟨4, _⟩, items) => (skip? items).map fun rest => items.take (items.length - rest.length)
  | _ => none

end ConwayTx.Cbor
