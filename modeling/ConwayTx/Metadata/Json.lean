import ConwayTx.Json.Form
import ConwayTx.Metadata

/-!
# Metadata in JSON

Integers are numbers of 128 bits. Reading is bounded by the containers that may still be opened
(`room`).
-/

namespace ConwayTx.Metadatum

mutual

def toJson : Metadatum → Json
  | int n => .variant "Int" (.ofInt n)
  | bytes content => .variant "Bytes" (.ofBytes content)
  | text content => .variant "Text" (.ofText content)
  | list items => .variant "Array" (.array (allToJson items))
  | map entries => .variant "Map" (.array (pairsToJson entries))

def allToJson : List Metadatum → List Json
  | [] => []
  | item :: rest => toJson item :: allToJson rest

def pairsToJson : List (Metadatum × Metadatum) → List Json
  | [] => []
  | (key, value) :: rest => .array [toJson key, toJson value] :: pairsToJson rest

end

def readWithin? : Nat → Json → Option Metadatum
  | 0, _ => none
  | room + 1, j =>
    match j.variant?, room with
    | some ("Int", n), _ => n.int128?.map int
    | some ("Text", content), _ => content.text?.map text
    | some ("Bytes", content), _ + 1 => content.bytes?.map bytes
    | some ("Array", items), inner + 1 => (items.list? fun item => readWithin? inner item).map list
    | some ("Map", entries), inner + 2 =>
      (entries.list? (Json.pair? fun item => readWithin? inner item)).map map
    | some ("Map", .array []), 1 => some (map [])
    | _, _ => none

def ofJson? (j : Json) : Option Metadatum := readWithin? Json.maxNesting j

end ConwayTx.Metadatum
