import ConwayTx.Bytes

/-!
# Bech32

Checksummed text for byte strings: a prefix, the separator `1`, then five-bit characters of which
the last six are the checksum. Reading accepts both checksum constants.
-/

namespace ConwayTx.Bech32

inductive Fault where
  | unreadable
  | badChecksum
deriving DecidableEq

def Fault.message : Fault → String
  | .unreadable => "parsing failed"
  | .badChecksum => "no valid bech32 or bech32m checksum"

def alphabet : List Char := "qpzry9x8gf2tvdw0s3jn54khce6mua7l".toList

def symbol (n : Nat) : Char := alphabet.getD n 'q'

/-- Letters count in either case. -/
def symbolValue? (c : Char) : Option Nat := alphabet.idxOf? c.toLower

def maxLength : Nat := 1023
def maxPrefixLength : Nat := 83
def checksumLength : Nat := 6

/-! ### Bits -/

/-- The low `width` bits, highest first. -/
def bits : Nat → Nat → List Bool
  | 0, _ => []
  | width + 1, n => n.testBit width :: bits width n

def ofBits (bs : List Bool) : Nat := bs.foldl (fun n b => 2 * n + b.toNat) 0

/-- Groups of `width` bits, the last one filled up with zeros. -/
def paddedGroups (width : Nat) (bs : List Bool) : List Nat :=
  if bs = [] ∨ width = 0 then []
  else
    let group := bs.take width
    ofBits (group ++ List.replicate (width - group.length) false) :: paddedGroups width (bs.drop width)
termination_by bs.length
decreasing_by
  rename_i h
  have : bs.length ≠ 0 := fun z => h (.inl (List.length_eq_zero_iff.1 z))
  simp [List.length_drop]; omega

/-- Whole groups of `width` bits; a shorter rest is dropped. -/
def wholeGroups (width : Nat) (bs : List Bool) : List Nat :=
  if bs.length < width ∨ width = 0 then []
  else ofBits (bs.take width) :: wholeGroups width (bs.drop width)
termination_by bs.length
decreasing_by simp [List.length_drop]; omega

def toSymbols (bytes : Bytes) : List Nat :=
  paddedGroups 5 (bytes.flatMap fun b => bits 8 b.toNat)

def ofSymbols (symbols : List Nat) : Bytes :=
  (wholeGroups 8 (symbols.flatMap (bits 5))).map UInt8.ofNat

/-! ### Checksum -/

def generators : List Nat := [0x3b6a57b2, 0x26508e6d, 0x1ea119fa, 0x3d4233dd, 0x2a1462b3]

def residueStep (r v : Nat) : Nat :=
  let top := r >>> 25
  let start := ((r &&& 0x1ffffff) <<< 5) ^^^ v
  generators.zipIdx.foldl (fun r (g, i) => if top.testBit i then r ^^^ g else r) start

def residue (values : List Nat) : Nat := values.foldl residueStep 1

/-- The prefix enters the checksum in lower case. -/
def expandPrefix (hrp : List Char) : List Nat :=
  hrp.map (fun c => c.toLower.toNat >>> 5) ++ 0 :: hrp.map fun c => c.toLower.toNat &&& 31

def classicConstant : Nat := 1
def modifiedConstant : Nat := 0x2bc830a3

def checksum (hrp : List Char) (symbols : List Nat) : List Nat :=
  let r := residue (expandPrefix hrp ++ symbols ++ List.replicate checksumLength 0) ^^^ classicConstant
  (List.range checksumLength).map fun i => (r >>> (5 * (5 - i))) &&& 31

/-! ### Text -/

/-- Too long a text is refused. -/
def encode? (hrp : String) (bytes : Bytes) : Option String :=
  let symbols := toSymbols bytes
  let data := symbols ++ checksum hrp.toList symbols
  let text := hrp.toList ++ '1' :: data.map symbol
  if text.length ≤ maxLength then some (String.ofList text) else none

/-- The parts before and after the last separator. -/
def splitSeparator? (cs : List Char) : Option (List Char × List Char) :=
  let reversed := cs.reverse
  match reversed.dropWhile (· ≠ '1') with
  | [] => none
  | _ :: hrp => some (hrp.reverse, (reversed.takeWhile (· ≠ '1')).reverse)

def isPrefixChar (c : Char) : Bool := 33 ≤ c.toNat && c.toNat ≤ 126

def readPrefix? (hrp : List Char) : Option (List Char) :=
  if hrp ≠ [] ∧ hrp.length ≤ maxPrefixLength ∧ hrp.all isPrefixChar then some hrp else none

def isMixedCase (cs : List Char) : Bool := cs.any Char.isUpper && cs.any Char.isLower

/-- Prefix and payload. -/
def decode (text : String) : Except Fault (String × Bytes) := do
  let cs := text.toList
  if isMixedCase cs then throw .unreadable
  let some (before, after) := splitSeparator? cs | throw .unreadable
  let some hrp := readPrefix? before | throw .unreadable
  let some symbols := after.mapM symbolValue? | throw .unreadable
  if maxLength < (Bytes.ofText text).length ∨ symbols.length < checksumLength then throw .badChecksum
  let found := residue (expandPrefix hrp ++ symbols)
  if found ≠ classicConstant ∧ found ≠ modifiedConstant then throw .badChecksum
  return (String.ofList hrp, ofSymbols (symbols.take (symbols.length - checksumLength)))

end ConwayTx.Bech32
