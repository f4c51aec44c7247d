/-!
# Powers of two and ten

The two sequences of powers that numbers are written with, and the bounds of the 64-bit words that
sizes, counters and sequence numbers live in.
-/

namespace BulkRun

/-- A power of two. -/
def twoTo (k : Nat) : Nat := Nat.pow 2 k

/-- A power of ten. -/
def tenTo (k : Nat) : Nat := Nat.pow 10 k

/-- The number of values of an unsigned 64-bit word. -/
def wordCount : Nat := twoTo 64

/-- The greatest unsigned 64-bit word. -/
def wordMax : Nat := wordCount - 1

/-- The greatest power of two in a 64-bit word, where the signed words end. -/
def signedCount : Nat := twoTo 63

end BulkRun
