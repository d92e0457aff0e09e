import ConwayTx.Digest.Json
import ConwayTx.Script

/-!
# Scripts in JSON

Reading is bounded by the containers that may still be opened (`room`).
-/

namespace ConwayTx

namespace NativeScript

mutual

def toJson : NativeScript → Json
  | signedBy key => .variant "ScriptPubkey" key.toJson
  | all scripts => .variant "ScriptAll" (.array (allToJson scripts))
  | any scripts => .variant "ScriptAny" (.array (allToJson scripts))
  | atLeast required scripts =>
    .variant "ScriptNOfK" (.array [.ofNat required.toNat, .array (allToJson scripts)])
  | notBefore slot => .variant "InvalidBefore" (.ofNat slot.toNat)
  | notAfter slot => .variant "InvalidHereafter" (.ofNat slot.toNat)

def allToJson : List NativeScript → List Json
  | [] => []
  | script :: rest => toJson script :: allToJson rest

end

def readWithin? : Nat → Json → Option NativeScript
  | 0, _ => none
  | room + 1, j =>
    match j.variant?, room with
    | some ("ScriptPubkey", key), _ => (Digest.ofJson? key).map signedBy
    | some ("InvalidBefore", slot), _ => slot.uint64?.map notBefore
    | some ("InvalidHereafter", slot), _ => slot.uint64?.map notAfter
    | some ("ScriptAll", scripts), inner + 1 =>
      (scripts.list? fun script => readWithin? inner script).map all
    | some ("ScriptAny", scripts), inner + 1 =>
      (scripts.list? fun script => readWithin? inner script).map any
    | some ("ScriptNOfK", .array [required, scripts]), inner + 2 => do
      return atLeast (← required.uint32?) (← scripts.list? fun script => readWithin? inner script)
    | _, _ => none

def ofJson? (j : Json) : Option NativeScript := readWithin? Json.maxNesting j

end NativeScript

namespace PlutusVersion

def toJson (version : PlutusVersion) : Json := .ofText version.name

def ofName? (name : String) : Option PlutusVersion := [v1, v2, v3].find? (·.name = name)

def ofJson? (j : Json) : Option PlutusVersion :=
  match j.variant? with
  | some (name, .null) => ofName? name
  | _ => none

end PlutusVersion

namespace PlutusScript

def toJson (script : PlutusScript) : Json :=
  .record [("version", script.version.toJson), ("bytes", .ofBytes script.bytes)]

def ofJson? (j : Json) : Option PlutusScript := do
  let [some version, some bytes] ← j.fields? ["version", "bytes"] | none
  return ⟨← PlutusVersion.ofJson? version, ← bytes.bytes?⟩

end PlutusScript

namespace Script

def toJson : Script → Json
  | native script => .variant "Native" script.toJson
  | plutus script => .variant "Plutus" script.toJson

def ofJson? (j : Json) : Option Script :=
  match j.variant? with
  | some ("Native", script) => (NativeScript.readWithin? (Json.maxNesting - 1) script).map native
  | some ("Plutus", script) => (PlutusScript.ofJson? script).map plutus
  | _ => none

end Script

end ConwayTx
