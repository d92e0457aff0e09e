import ConwayTx.Json.Literal

/-!
# Forms

The shapes that the JSON forms of ledger values are made of. A record is an object, or an array of
its fields in order. A variant is an object of one field that names it; its name alone stands for
the variant with `null`.
-/

namespace ConwayTx.Json

/-- Forms of recursive types nest this deep. -/
def maxNesting : Nat := 127

/-! ### Lists -/

def items? : Json → Option (List Json)
  | .array items => some items
  | _ => none

def list? {α : Type} (read : Json → Option α) (j : Json) : Option (List α) := do
  (← j.items?).mapM read

def pair? {α : Type} (read : Json → Option α) (j : Json) : Option (α × α) := do
  let [first, second] ← j.list? read | none
  return (first, second)

def bytes? (j : Json) : Option Bytes := j.list? uint8?

def vector? (size : Nat) (j : Json) : Option (Vector UInt8 size) := do
  let bytes ← j.bytes?
  if h : bytes.toArray.size = size then some ⟨bytes.toArray, h⟩ else none

def ofBytes (bytes : Bytes) : Json := .array (bytes.map fun b => .ofNat b.toNat)

/-! ### Records -/

def record (fields : List (String × Json)) : Json :=
  .object (fields.map fun (name, item) => (name.toList, item))

/-- A field that is there at most once. -/
def single? (name : String) (fields : List (String × Json)) : Option (Option Json) :=
  match fields.filter (·.1 = name) with
  | [] => some none
  | [(_, item)] => some (some item)
  | _ => none

def namedFields? (fields : List (List Char × Json)) : Option (List (String × Json)) :=
  fields.mapM fun (name, item) => (decodeText? name).map (·, item)

/-- The fields under these names. An object may leave fields out and may have others, which are
ignored; an array may leave out what follows the first `least`. -/
def fieldsFrom? (least : Nat) (names : List String) : Json → Option (List (Option Json))
  | .object fields => do
    let named ← namedFields? fields
    names.mapM fun name => single? name named
  | .array items =>
    if least ≤ items.length ∧ items.length ≤ names.length then
      some ((List.range names.length).map fun i => items[i]?)
    else none
  | _ => none

def fields? (names : List String) (j : Json) : Option (List (Option Json)) :=
  j.fieldsFrom? names.length names

/-- A field that may be missing or `null`. -/
def optional? {α : Type} (read : Json → Option α) : Option Json → Option (Option α)
  | none | some .null => some none
  | some item => (read item).map some

def ofOption {α : Type} (write : α → Json) : Option α → Json
  | none => .null
  | some value => write value

/-! ### Variants -/

def variant (name : String) (content : Json) : Json := record [(name, content)]

def variant? : Json → Option (String × Json)
  | .string literal => (decodeText? literal).map (·, .null)
  | .object [(name, content)] => (decodeText? name).map (·, content)
  | _ => none

end ConwayTx.Json
