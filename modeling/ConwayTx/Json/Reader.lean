import ConwayTx.Json.Token

/-!
# Reading JSON

A run over the tokens with the containers that are still open. Nesting has no limit here; the
forms set one.
-/

namespace ConwayTx.Json

/-- An open container that waits for a value. Members are kept newest first. -/
inductive Frame where
  | array (items : List Json)
  | object (fields : List (List Char × Json)) (name : List Char)

/-- What has been read, and with it what may follow. -/
inductive Progress where
  | wantsValue (outer : List Frame)
  | openedArray (outer : List Frame)
  | openedObject (outer : List Frame)
  | wantsName (fields : List (List Char × Json)) (outer : List Frame)
  | wantsColon (fields : List (List Char × Json)) (name : List Char) (outer : List Frame)
  | complete (value : Json) (outer : List Frame)

namespace Progress

def beginValue (outer : List Frame) : Token → Option Progress
  | .scalar value => some (complete value outer)
  | .string literal => some (complete (.string literal) outer)
  | .mark '[' => some (openedArray outer)
  | .mark '{' => some (openedObject outer)
  | .mark _ => none

def step : Progress → Token → Option Progress
  | wantsValue outer, t => beginValue outer t
  | openedArray outer, .mark ']' => some (complete (.array []) outer)
  | openedArray outer, t => beginValue (.array [] :: outer) t
  | openedObject outer, .mark '}' => some (complete (.object []) outer)
  | openedObject outer, .string name => some (wantsColon [] name outer)
  | wantsName fields outer, .string name => some (wantsColon fields name outer)
  | wantsColon fields name outer, .mark ':' => some (wantsValue (.object fields name :: outer))
  | complete value (.array items :: outer), .mark ',' =>
    some (wantsValue (.array (value :: items) :: outer))
  | complete value (.array items :: outer), .mark ']' =>
    some (complete (.array (value :: items).reverse) outer)
  | complete value (.object fields name :: outer), .mark ',' =>
    some (wantsName ((name, value) :: fields) outer)
  | complete value (.object fields name :: outer), .mark '}' =>
    some (complete (.object ((name, value) :: fields).reverse) outer)
  | _, _ => none

def result? : Progress → Option Json
  | complete value [] => some value
  | _ => none

end Progress

def read? (text : String) : Option Json := do
  let tokens ← tokens? text.toList
  let last ← tokens.foldlM Progress.step (.wantsValue [])
  last.result?

end ConwayTx.Json
