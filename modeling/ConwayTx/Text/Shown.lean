import ConwayTx.Text.Extender
import ConwayTx.Text.Invisible
import ConwayTx.Text.Unassigned

/-!
# Characters shown as themselves

In quoted text a character stands for itself if a reader sees it there, apart from its neighbours.
-/

namespace ConwayTx.Text

def isShown (c : Char) : Bool := !(isExtender c || isInvisible c || isUnassigned c)

example : isShown 'é' ∧ isShown '日' ∧ isShown '😀' ∧ isShown ' ' := by decide +kernel
example : ¬ isShown '\n' ∧ ¬ isShown '\u0378' ∧ ¬ isShown '\u0301' := by decide +kernel

end ConwayTx.Text
