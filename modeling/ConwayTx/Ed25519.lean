import ConwayTx.Digest.Sha512

/-!
# Ed25519

Signatures that depend on key and message alone, over the twisted Edwards curve. Field elements are
integers modulo the field prime.
-/

namespace ConwayTx.Ed25519

def fieldPrime : Nat := 1 <<< 255 - 19
def groupOrder : Nat := 1 <<< 252 + 27742317777372353535851937790883648493

/-- Extended coordinates: `x = X / Z`, `y = Y / Z`, `x * y = T / Z`. -/
structure Point where
  x : Nat
  y : Nat
  z : Nat
  t : Nat

def curveConstant : Nat :=
  37095705934669439343138083508754565189542113879843219016388785533085940283555

def identity : Point := ⟨0, 1, 1, 0⟩

def base : Point :=
  let x := 15112221349535400772501151409588531511454012693041857206046113283949847762202
  let y := 46316835694926478169428394003475163141307993866256225615783033603165251855960
  ⟨x, y, 1, x * y % fieldPrime⟩

def subMod (a b : Nat) : Nat := (a + fieldPrime - b) % fieldPrime

def Point.add (p q : Point) : Point :=
  let a := subMod p.y p.x * subMod q.y q.x % fieldPrime
  let b := (p.y + p.x) * (q.y + q.x) % fieldPrime
  let c := p.t * 2 * curveConstant % fieldPrime * q.t % fieldPrime
  let d := p.z * 2 * q.z % fieldPrime
  let e := subMod b a
  let f := subMod d c
  let g := (d + c) % fieldPrime
  let h := (b + a) % fieldPrime
  ⟨e * f % fieldPrime, g * h % fieldPrime, f * g % fieldPrime, e * h % fieldPrime⟩

/-- Bits of `n` from the highest of `width` down to the lowest. -/
def bits (width n : Nat) : List Bool := ((List.range width).map n.testBit).reverse

def Point.times (p : Point) (n : Nat) : Point :=
  (bits 256 n).foldl (fun q bit => if bit then (q.add q).add p else q.add q) identity

def powMod (b e : Nat) : Nat :=
  (bits 256 e).foldl (fun r bit => if bit then r * r * b % fieldPrime else r * r % fieldPrime) 1

def inverse (a : Nat) : Nat := powMod a (fieldPrime - 2)

/-- The ordinate, with the parity of the abscissa in the top bit. -/
def Point.compress (p : Point) : Digest 32 :=
  let scale := inverse p.z
  let x := p.x * scale % fieldPrime
  let y := p.y * scale % fieldPrime
  ⟨Bytes.littleEndian 32 (y + (x % 2) <<< 255), by simp⟩

/-- The low half of the hashed seed, with its three lowest and its highest bit cleared and the bit
below the highest set. -/
def secretScalar (seed : Digest 32) : Nat :=
  let low := Bytes.ofLittleEndian ((sha512 seed.bytes).bytes.take 32)
  low % (1 <<< 254) / 8 * 8 + 1 <<< 254

def hashToScalar (message : Bytes) : Nat :=
  Bytes.ofLittleEndian (sha512 message).bytes % groupOrder

def publicKey (seed : Digest 32) : VerificationKey := (base.times (secretScalar seed)).compress

def sign (seed : Digest 32) (message : Bytes) : Signature :=
  let a := secretScalar seed
  let r := hashToScalar ((sha512 seed.bytes).bytes.drop 32 ++ message)
  let commitment := (base.times r).compress
  let challenge := hashToScalar (commitment.bytes ++ (publicKey seed).bytes ++ message)
  let response := (r + challenge * a) % groupOrder
  ⟨commitment.bytes ++ Bytes.littleEndian 32 response, by simp [commitment.length_eq]⟩

end ConwayTx.Ed25519
