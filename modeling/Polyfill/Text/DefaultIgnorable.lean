/-!
# Characters that a display leaves out

The Unicode property `Default_Ignorable_Code_Point`: joiners, selectors and fillers, among them the
four Hangul fillers, which are letters without ink.  The class is given by the code points at which
it begins and ends, in turn.
-/

namespace Polyfill.Text

/-- The code points at which the class of ignorable characters begins or ends. -/
def defaultIgnorableEdges : List Nat :=
  [0xAD, 0xAE, 0x34F, 0x350, 0x61C, 0x61D, 0x115F, 0x1161, 0x17B4, 0x17B6, 0x180B, 0x1810, 0x200B,
    0x2010, 0x202A, 0x202F, 0x2060, 0x2070, 0x3164, 0x3165, 0xFE00, 0xFE10, 0xFEFF, 0xFF00,
    0xFFA0, 0xFFA1, 0xFFF0, 0xFFF9, 0x1BCA0, 0x1BCA4, 0x1D173, 0x1D17B, 0xE0000, 0xE1000]

/-- Whether a display leaves a character out: an odd number of edges lies at or before it. -/
def isDefaultIgnorable (c : Char) : Bool :=
  (defaultIgnorableEdges.takeWhile (· ≤ c.toNat)).length % 2 == 1

end Polyfill.Text
