/-!
# JSON values

Numbers and strings are kept as they are written; a form that reads one decodes it. `render` writes
without blanks.
-/

namespace ConwayTx

inductive Json where
  | null
  | bool (b : Bool)
  | number (literal : List Char)
  /-- What stands between the quotes. -/
  | string (literal : List Char)
  | array (items : List Json)
  /-- In the order of the text; a name may come twice. -/
  | object (fields : List (List Char × Json))

namespace Json

instance : Inhabited Json := ⟨null⟩

def quote (literal : List Char) : List Char := '"' :: literal ++ ['"']

mutual

def chars : Json → List Char
  | null => ['n', 'u', 'l', 'l']
  | bool true => ['t', 'r', 'u', 'e']
  | bool false => ['f', 'a', 'l', 's', 'e']
  | number literal => literal
  | string literal => quote literal
  | array [] => ['[', ']']
  | array (item :: rest) => '[' :: chars item ++ moreItems rest
  | object [] => ['{', '}']
  | object ((name, item) :: rest) => '{' :: quote name ++ ':' :: chars item ++ moreFields rest

def moreItems : List Json → List Char
  | [] => [']']
  | item :: rest => ',' :: chars item ++ moreItems rest

def moreFields : List (List Char × Json) → List Char
  | [] => ['}']
  | (name, item) :: rest => ',' :: quote name ++ ':' :: chars item ++ moreFields rest

end

def render (j : Json) : String := String.ofList j.chars

end Json

end ConwayTx
