import ConwayTx.Digest.Json
import ConwayTx.PlutusData

/-!
# Plutus data in JSON

Byte strings are arrays of numbers, integers are numbers of 128 bits. Reading is bounded by the
containers that may still be opened (`room`).
-/

namespace ConwayTx

namespace PlutusData

mutual

def toJson : PlutusData → Json
  | constr tag fields =>
    .variant "Constr" (.record [("tag", .ofNat tag.toNat), ("fields", .array (allToJson fields))])
  | map entries => .variant "Map" (.array (pairsToJson entries))
  | list items => .variant "List" (.array (allToJson items))
  | integer n => .variant "Integer" (.ofInt n)
  | bytes content => .variant "Bytes" (.ofBytes content)

def allToJson : List PlutusData → List Json
  | [] => []
  | item :: rest => toJson item :: allToJson rest

def pairsToJson : List (PlutusData × PlutusData) → List Json
  | [] => []
  | (key, value) :: rest => .array [toJson key, toJson value] :: pairsToJson rest

end

def readWithin? : Nat → Json → Option PlutusData
  | 0, _ => none
  | room + 1, j =>
    match j.variant?, room with
    | some ("Integer", n), _ => n.int128?.map integer
    | some ("Bytes", content), _ + 1 => content.bytes?.map bytes
    | some ("List", items), inner + 1 => (items.list? fun item => readWithin? inner item).map list
    | some ("Map", entries), inner + 2 =>
      (entries.list? (Json.pair? fun item => readWithin? inner item)).map map
    | some ("Map", .array []), 1 => some (map [])
    | some ("Constr", content), inner + 2 => do
      let [some tag, some fields] ← content.fields? ["tag", "fields"] | none
      return constr (← tag.uint64?) (← fields.list? fun item => readWithin? inner item)
    | _, _ => none

def ofJson? (j : Json) : Option PlutusData := readWithin? Json.maxNesting j

end PlutusData

namespace Datum

def toJson : Datum → Json
  | hash h => .variant "Hash" h.toJson
  | inline data => .variant "Inline" data.toJson

def ofJson? (j : Json) : Option Datum :=
  match j.variant? with
  | some ("Hash", content) => (Digest.ofJson? content).map hash
  | some ("Inline", data) => (PlutusData.readWithin? (Json.maxNesting - 1) data).map inline
  | _ => none

end Datum

end ConwayTx
