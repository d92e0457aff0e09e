import ConwayTx.Amount
import ConwayTx.Hex
import ConwayTx.Json
import ConwayTx.Text.Numeral

/-!
# Literals

Texts and integers as JSON writes them. Half a surrogate pair is no text, a number with a fraction
or an exponent no integer.
-/

namespace ConwayTx.Json

/-! ### Texts -/

/-- Quotes, backslashes and controls are escaped. -/
def escape (c : Char) : List Char :=
  match c with
  | '"' => ['\\', '"']
  | '\\' => ['\\', '\\']
  | '\x08' => ['\\', 'b']
  | '\x0c' => ['\\', 'f']
  | '\n' => ['\\', 'n']
  | '\r' => ['\\', 'r']
  | '\t' => ['\\', 't']
  | c =>
    if c.toNat < 32 then
      let code := UInt8.ofNat c.toNat
      ['\\', 'u', '0', '0', Hex.digit (code / 16), Hex.digit (code % 16)]
    else [c]

def ofText (text : String) : Json := .string (text.toList.flatMap escape)

def hexValue? (c : Char) : Option Nat :=
  if c.toNat < 128 then (Hex.digitValue? c.toUInt8).map UInt8.toNat else none

def hexUnit? (digits : List Char) : Option Nat :=
  digits.foldlM (fun unit c => (hexValue? c).map (unit * 16 + ·)) 0

/-- The character of a short escape. -/
def shortEscape? : Char → Option Char
  | '"' => some '"'
  | '\\' => some '\\'
  | '/' => some '/'
  | 'b' => some '\x08'
  | 'f' => some '\x0c'
  | 'n' => some '\n'
  | 'r' => some '\r'
  | 't' => some '\t'
  | _ => none

/-- Code points, with surrogates where escapes write them. -/
def codes? : List Char → Option (List Nat)
  | [] => some []
  | '\\' :: 'u' :: a :: b :: c :: d :: rest => do
    let unit ← hexUnit? [a, b, c, d]
    return unit :: (← codes? rest)
  | '\\' :: e :: rest => do
    let c ← shortEscape? e
    return c.toNat :: (← codes? rest)
  | c :: rest => do return c.toNat :: (← codes? rest)

def isLead (code : Nat) : Bool := 0xD800 ≤ code && code ≤ 0xDBFF
def isTrail (code : Nat) : Bool := 0xDC00 ≤ code && code ≤ 0xDFFF

def joinSurrogates? : List Nat → Option (List Char)
  | [] => some []
  | [code] => if isLead code || isTrail code then none else some [Char.ofNat code]
  | code :: next :: rest =>
    if isLead code && isTrail next then
      (joinSurrogates? rest).map
        (Char.ofNat (0x10000 + (code - 0xD800) * 0x400 + (next - 0xDC00)) :: ·)
    else if isLead code || isTrail code then none
    else (joinSurrogates? (next :: rest)).map (Char.ofNat code :: ·)

def decodeText? (literal : List Char) : Option String :=
  ((codes? literal).bind joinSurrogates?).map String.ofList

def text? : Json → Option String
  | .string literal => decodeText? literal
  | _ => none

/-! ### Integers -/

def ofNat (n : Nat) : Json := .number (Nat.toDigits 10 n)

def ofInt : Int → Json
  | .ofNat n => .ofNat n
  | .negSucc n => .number ('-' :: Nat.toDigits 10 (n + 1))

/-- A natural number below the bound, written without a sign. -/
def natBelow? (bound : Nat) : Json → Option Nat
  | .number literal => (Text.digitsValue? literal).filter (· < bound)
  | _ => none

def int? : Json → Option Int
  | .number ('-' :: digits) => (Text.digitsValue? digits).map fun n => -(n : Int)
  | .number digits => (Text.digitsValue? digits).map Int.ofNat
  | _ => none

/-- A signed word of 64 bits. Zero has no sign here. -/
def int64? (j : Json) : Option Int64 :=
  match j with
  | .number ['-', '0'] => none
  | j => j.int?.bind Amount.signed?

def isInt128 : Int → Bool
  | .ofNat n => n < 1 <<< 127
  | .negSucc n => n < 1 <<< 127

/-- A signed word of 128 bits. -/
def int128? (j : Json) : Option Int := j.int?.filter isInt128

def uint8? (j : Json) : Option UInt8 := (j.natBelow? UInt8.size).map UInt8.ofNat
def uint16? (j : Json) : Option UInt16 := (j.natBelow? UInt16.size).map UInt16.ofNat
def uint32? (j : Json) : Option UInt32 := (j.natBelow? UInt32.size).map UInt32.ofNat
def uint64? (j : Json) : Option UInt64 := (j.natBelow? UInt64.size).map UInt64.ofNat

def bool? : Json → Option Bool
  | .bool b => some b
  | _ => none

example : decodeText? ['\\', 'u', 'd', '8', '3', 'd', '\\', 'u', 'D', 'E', '0', '0'] = some "😀" := by
  decide +kernel
example : decodeText? ['\\', 'u', 'd', '8', '3', 'd', 'x'] = none := by decide +kernel
example : (ofText "a\"\x01").render = "\"a\\\"\\u0001\"" := by decide +kernel
example : (Json.number ['-', '0']).int128? = some 0 ∧ (Json.number ['-', '0']).int64? = none := by decide

end ConwayTx.Json
