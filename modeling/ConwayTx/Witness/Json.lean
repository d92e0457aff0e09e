import ConwayTx.Digest.Json
import ConwayTx.Witness

/-!
# Key witnesses in JSON
-/

namespace ConwayTx.KeyWitness

def toJson (w : KeyWitness) : Json :=
  .record [("vkey", w.key.toJson), ("signature", w.signature.toJson)]

def ofJson? (j : Json) : Option KeyWitness := do
  let [some key, some signature] ← j.fields? ["vkey", "signature"] | none
  return ⟨← Digest.ofJson? key, ← Digest.ofJson? signature⟩

end ConwayTx.KeyWitness
