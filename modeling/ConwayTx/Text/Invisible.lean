import ConwayTx.Text.Ranges

/-!
# Invisible characters

Controls, format characters, separators other than the space, and fillers: the general categories
Cc, Cf, Zl, Zp and Zs of Unicode 17, and Default_Ignorable_Code_Point as far as its characters
neither extend another nor are unassigned.
-/

namespace ConwayTx.Text

def invisibleRanges : Ranges := [
  (0x0, 0x1F), (0x7F, 0xA0), (0xAD, 0xAD), (0x600, 0x605), (0x61C, 0x61C), (0x6DD, 0x6DD),
  (0x70F, 0x70F), (0x890, 0x891), (0x8E2, 0x8E2), (0x115F, 0x1160), (0x1680, 0x1680),
  (0x180E, 0x180E), (0x2000, 0x200F), (0x2028, 0x202F), (0x205F, 0x2064), (0x2066, 0x206F),
  (0x3000, 0x3000), (0x3164, 0x3164), (0xFEFF, 0xFEFF), (0xFFA0, 0xFFA0), (0xFFF9, 0xFFFB),
  (0x110BD, 0x110BD), (0x110CD, 0x110CD), (0x13430, 0x1343F), (0x1BCA0, 0x1BCA3),
  (0x1D173, 0x1D17A), (0xE0001, 0xE0001), (0xE0020, 0xE007F)]

def isInvisible (c : Char) : Bool := invisibleRanges.contains c

example : invisibleRanges.isAscending ∧ invisibleRanges.size = 257 := by decide +kernel
example : isInvisible '\n' ∧ isInvisible '\u00ad' ∧ isInvisible '\u3164' ∧ ¬ isInvisible ' ' := by
  decide +kernel

end ConwayTx.Text
