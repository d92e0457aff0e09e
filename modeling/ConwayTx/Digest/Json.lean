import ConwayTx.Digest
import ConwayTx.Json.Form

/-!
# Digests in JSON

Hexadecimal text, written in lower case.
-/

namespace ConwayTx.Digest

variable {size : Nat}

def toJson (d : Digest size) : Json := .ofText d.toHex

def ofJson? (j : Json) : Option (Digest size) := do (ofHex (← j.text?)).toOption

end ConwayTx.Digest
