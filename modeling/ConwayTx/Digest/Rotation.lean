/-!
# Rotation

64-bit words rotate right by less than their width.
-/

namespace ConwayTx

def rotateRight (x n : UInt64) : UInt64 := (x >>> n) ||| (x <<< (64 - n))

end ConwayTx
