/-!
# Byte strings

Byte strings are lists. Numbers are written big-endian in a stated width;
`ofBigEndian_bigEndian` reads them back as far as the width holds them (`capacity`).
-/

namespace ConwayTx

abbrev Bytes := List UInt8

namespace Bytes

/-- The low `width` bytes of `n`, most significant first. -/
def bigEndian : Nat → Nat → Bytes
  | 0, _ => []
  | width + 1, n => bigEndian width (n / 256) ++ [UInt8.ofNat n]

/-- How many numbers `width` bytes tell apart. -/
def capacity : Nat → Nat
  | 0 => 1
  | width + 1 => 256 * capacity width

def ofBigEndian (bytes : Bytes) : Nat :=
  bytes.foldl (fun n b => n * 256 + b.toNat) 0

/-- The low `width` bytes of `n`, least significant first. -/
def littleEndian : Nat → Nat → Bytes
  | 0, _ => []
  | width + 1, n => UInt8.ofNat n :: littleEndian width (n / 256)

def ofLittleEndian : Bytes → Nat
  | [] => 0
  | b :: rest => b.toNat + 256 * ofLittleEndian rest

/-- Big-endian without leading zeros; zero is one byte. -/
def shortest (n : Nat) : Bytes :=
  bigEndian (n.log2 / 8 + 1) n

/-- Pieces of `size` bytes, the last one possibly shorter. -/
def chunks (size : Nat) (bytes : Bytes) : List Bytes :=
  if bytes.length ≤ size ∨ size = 0 then [bytes]
  else bytes.take size :: chunks size (bytes.drop size)
termination_by bytes.length
decreasing_by simp [List.length_drop]; omega

def ofText (text : String) : Bytes := text.toUTF8.toList

@[simp] theorem length_bigEndian (width n : Nat) : (bigEndian width n).length = width := by
  induction width generalizing n with
  | zero => rfl
  | succ width ih => simp [bigEndian, ih]

@[simp] theorem length_littleEndian (width n : Nat) : (littleEndian width n).length = width := by
  induction width generalizing n with
  | zero => rfl
  | succ width ih => simp [littleEndian, ih]

theorem ofBigEndian_append (bytes : Bytes) (last : UInt8) :
    ofBigEndian (bytes ++ [last]) = ofBigEndian bytes * 256 + last.toNat := by
  simp [ofBigEndian, List.foldl_append]

theorem ofBigEndian_bigEndian (width n : Nat) :
    ofBigEndian (bigEndian width n) = n % capacity width := by
  induction width generalizing n with
  | zero => simp [bigEndian, ofBigEndian, capacity, Nat.mod_one]
  | succ width ih =>
    rw [bigEndian, ofBigEndian_append, ih, capacity, Nat.mod_mul, UInt8.toNat_ofNat']
    omega

theorem eq_of_compare {a b : Bytes} (h : compare a b = .eq) : a = b :=
  Std.LawfulEqCmp.eq_of_compare h

end Bytes

end ConwayTx
