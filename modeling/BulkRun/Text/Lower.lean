/-!
# Lower case

Names of settings are compared in lower case.  All names that are looked for are ASCII, so only the
characters whose lower case is ASCII need to be turned: the capital letters, and the Kelvin sign,
whose lower case is the letter `k`.
-/

namespace BulkRun.Text

/-- A character in lower case, where that is an ASCII character. -/
def lowerChar (c : Char) : Char :=
  if c.toNat = 0x212A then 'k' else c.toLower

/-- A text in lower case, as far as that is ASCII. -/
def lower (s : String) : String := String.ofList (s.toList.map lowerChar)

end BulkRun.Text
