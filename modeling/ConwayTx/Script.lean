import ConwayTx.Cbor
import ConwayTx.Digest.Blake2b
import ConwayTx.PlutusVersion

/-!
# Scripts

Native scripts and compiled Plutus scripts. A script's hash covers its language tag and its bytes.
-/

namespace ConwayTx

inductive NativeScript where
  | signedBy (key : KeyHash)
  | all (scripts : List NativeScript)
  | any (scripts : List NativeScript)
  | atLeast (required : UInt32) (scripts : List NativeScript)
  | notBefore (slot : UInt64)
  | notAfter (slot : UInt64)

namespace NativeScript

mutual

def toCbor : NativeScript → Cbor
  | signedBy key => .array [.small 0, .bytes key.bytes]
  | all scripts => .array [.small 1, .array (allToCbor scripts)]
  | any scripts => .array [.small 2, .array (allToCbor scripts)]
  | atLeast required scripts =>
    .array [.small 3, .unsigned required.toUInt64, .array (allToCbor scripts)]
  | notBefore slot => .array [.small 4, .unsigned slot]
  | notAfter slot => .array [.small 5, .unsigned slot]

def allToCbor : List NativeScript → List Cbor
  | [] => []
  | script :: rest => toCbor script :: allToCbor rest

end

end NativeScript

structure PlutusScript where
  version : PlutusVersion
  bytes : Bytes
deriving DecidableEq

inductive Script where
  | native (script : NativeScript)
  | plutus (script : PlutusScript)

namespace Script

/-- What the script hash is taken of. -/
def hashedBytes : Script → Bytes
  | native script => 0 :: script.toCbor.encode
  | plutus script => script.version.scriptTag :: script.bytes

def hash (s : Script) : ScriptHash := blake2b224 s.hashedBytes

def version? : Script → Option PlutusVersion
  | native _ => none
  | plutus script => some script.version

def native? : Script → Option NativeScript
  | native script => some script
  | plutus _ => none

def plutus? : Script → Option PlutusScript
  | native _ => none
  | plutus script => some script

/-- The language tag and the script. -/
def taggedCbor : Script → Cbor
  | native script => .array [.small 0, script.toCbor]
  | plutus script => .array [.small script.version.scriptTag, .bytes script.bytes]

/-- A script carried by an output for reference. -/
def toCbor (s : Script) : Cbor := .tagged 24 (.bytes s.taggedCbor.encode)

end Script

end ConwayTx
