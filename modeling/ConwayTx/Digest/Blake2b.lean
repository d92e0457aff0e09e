import ConwayTx.Digest
import ConwayTx.Digest.Rotation

/-!
# Blake2b

Without a key, for digests of up to 64 bytes.
-/

namespace ConwayTx.Blake2b

abbrev Chain := Vector UInt64 8
abbrev Work := Vector UInt64 16

def initial : Chain := #v[
  0x6a09e667f3bcc908, 0xbb67ae8584caa73b, 0x3c6ef372fe94f82b, 0xa54ff53a5f1d36f1,
  0x510e527fade682d1, 0x9b05688c2b3e6c1f, 0x1f83d9abfb41bd6b, 0x5be0cd19137e2179]

def schedule : Vector (Vector (Fin 16) 16) 12 := #v[
  #v[0, 1, 2, 3, 4, 5, 6, 7, 8, 9, 10, 11, 12, 13, 14, 15],
  #v[14, 10, 4, 8, 9, 15, 13, 6, 1, 12, 0, 2, 11, 7, 5, 3],
  #v[11, 8, 12, 0, 5, 2, 15, 13, 10, 14, 3, 6, 7, 1, 9, 4],
  #v[7, 9, 3, 1, 13, 12, 11, 14, 2, 6, 5, 10, 4, 0, 15, 8],
  #v[9, 0, 5, 7, 2, 4, 10, 15, 14, 1, 11, 12, 6, 8, 3, 13],
  #v[2, 12, 6, 10, 0, 11, 8, 3, 4, 13, 7, 5, 15, 14, 1, 9],
  #v[12, 5, 1, 15, 14, 13, 4, 10, 0, 7, 6, 3, 9, 2, 8, 11],
  #v[13, 11, 7, 14, 12, 1, 3, 9, 5, 0, 15, 4, 8, 6, 2, 10],
  #v[6, 15, 14, 9, 11, 3, 0, 8, 12, 2, 13, 7, 1, 4, 10, 5],
  #v[10, 2, 8, 4, 7, 6, 1, 5, 15, 11, 9, 14, 3, 12, 13, 0],
  #v[0, 1, 2, 3, 4, 5, 6, 7, 8, 9, 10, 11, 12, 13, 14, 15],
  #v[14, 10, 4, 8, 9, 15, 13, 6, 1, 12, 0, 2, 11, 7, 5, 3]]

def mix (v : Work) (a b c d : Fin 16) (x y : UInt64) : Work :=
  let v := v.set a (v[a] + v[b] + x)
  let v := v.set d (rotateRight (v[d] ^^^ v[a]) 32)
  let v := v.set c (v[c] + v[d])
  let v := v.set b (rotateRight (v[b] ^^^ v[c]) 24)
  let v := v.set a (v[a] + v[b] + y)
  let v := v.set d (rotateRight (v[d] ^^^ v[a]) 16)
  let v := v.set c (v[c] + v[d])
  v.set b (rotateRight (v[b] ^^^ v[c]) 63)

/-- Four column steps, then four diagonal steps. -/
def round (message : Work) (v : Work) (s : Vector (Fin 16) 16) : Work :=
  let v := mix v 0 4 8 12 message[s[0]] message[s[1]]
  let v := mix v 1 5 9 13 message[s[2]] message[s[3]]
  let v := mix v 2 6 10 14 message[s[4]] message[s[5]]
  let v := mix v 3 7 11 15 message[s[6]] message[s[7]]
  let v := mix v 0 5 10 15 message[s[8]] message[s[9]]
  let v := mix v 1 6 11 12 message[s[10]] message[s[11]]
  let v := mix v 2 7 8 13 message[s[12]] message[s[13]]
  mix v 3 4 9 14 message[s[14]] message[s[15]]

/-- Bytes past the end of the block count as zero. -/
def words (block : Bytes) : Work :=
  Vector.ofFn fun i => UInt64.ofNat (Bytes.ofLittleEndian ((block.drop (8 * i)).take 8))

/-- Absorbs a block; `total` counts the bytes absorbed with it. -/
def compress (h : Chain) (block : Bytes) (total : Nat) (isLast : Bool) : Chain :=
  let v : Work := h ++ initial
  let v := v.set 12 (v[12] ^^^ UInt64.ofNat total)
  let v := v.set 13 (v[13] ^^^ UInt64.ofNat (total / UInt64.size))
  let v := if isLast then v.set 14 (v[14] ^^^ 0xffffffffffffffff) else v
  let message := words block
  let v := schedule.toList.foldl (round message) v
  Vector.ofFn fun i => h[i] ^^^ v[i.castLE (by decide : 8 ≤ 16)] ^^^ v[i.natAdd 8]

def absorb (h : Chain) (total : Nat) : List Bytes → Chain
  | [] => h
  | [block] => compress h block (total + block.length) true
  | block :: rest =>
    absorb (compress h block (total + block.length) false) (total + block.length) rest

def output (h : Chain) : Bytes := h.toList.flatMap fun w => Bytes.littleEndian 8 w.toNat

theorem length_output (h : Chain) : (output h).length = 64 := by
  simp [output, List.length_flatMap, List.map_const']

end Blake2b

/-- The Blake2b digest of `size` bytes. -/
def blake2b (size : Nat) (fits : size ≤ 64) (message : Bytes) : Digest size :=
  let start := Blake2b.initial.set 0 (Blake2b.initial[0] ^^^ 0x01010000 ^^^ UInt64.ofNat size)
  let final := Blake2b.absorb start 0 (Bytes.chunks 128 message)
  ⟨(Blake2b.output final).take size, by simp [Blake2b.length_output, fits]⟩

/-- Keys, scripts and policies. -/
def blake2b224 (message : Bytes) : Digest 28 := blake2b 28 (by decide) message

/-- Transactions, datums, metadata and script data. -/
def blake2b256 (message : Bytes) : Digest 32 := blake2b 32 (by decide) message

end ConwayTx
