/-!
# Plutus versions

The script languages, in the order they were introduced.
-/

namespace ConwayTx

inductive PlutusVersion where
  | v1
  | v2
  | v3
deriving DecidableEq

namespace PlutusVersion

/-- The key of the language's cost model. -/
def languageId : PlutusVersion → UInt8
  | v1 => 0
  | v2 => 1
  | v3 => 2

/-- Hashed in front of the script's bytes. -/
def scriptTag : PlutusVersion → UInt8
  | v1 => 1
  | v2 => 2
  | v3 => 3

def name : PlutusVersion → String
  | v1 => "V1"
  | v2 => "V2"
  | v3 => "V3"

def all : List PlutusVersion := [v1, v2, v3]

instance : Ord PlutusVersion := ⟨compareOn languageId⟩

instance : Std.TransOrd PlutusVersion := inferInstanceAs (Std.TransCmp (compareOn languageId))

instance : Std.LawfulEqOrd PlutusVersion where
  eq_of_compare {a b} h := by revert h; cases a <;> cases b <;> decide

end PlutusVersion

end ConwayTx
