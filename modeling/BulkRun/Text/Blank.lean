/-!
# White space and blank text

Names and keys may not be blank: a text of white space alone counts as empty.  White space is the
Unicode property `White_Space`, twenty-five characters, so a no-break space is blank while a zero
width space, a word joiner and a byte order mark are not.
-/

namespace BulkRun.Text

/-- The characters with the Unicode property `White_Space`. -/
def isWhite (c : Char) : Bool :=
  let n := c.toNat
  (9 ≤ n && n ≤ 13) || n == 0x20 || n == 0x85 || n == 0xA0 || n == 0x1680 ||
  (0x2000 ≤ n && n ≤ 0x200A) || n == 0x2028 || n == 0x2029 || n == 0x202F || n == 0x205F ||
  n == 0x3000

/-- A text is blank when nothing is left of it once white space is trimmed off both ends, that is
when it holds white space only. -/
def isBlank (s : String) : Bool :=
  s.toList.all isWhite

end BulkRun.Text
