import BulkRun.Text.Numeral
/-!
# Command ids

A command is known by a number of 128 bits, written as 32 hexadecimal digits in groups of eight,
four, four, four and twelve.
-/

namespace BulkRun

/-- The number that a command is known by. -/
structure CommandId where
  value : BitVec 128
deriving DecidableEq, Repr

namespace CommandId

/-- The id with a given number; bits beyond the 128th are dropped. -/
def ofNat (n : Nat) : CommandId := ⟨BitVec.ofNat 128 n⟩

/-- The number of an id. -/
def toNat (id : CommandId) : Nat := id.value.toNat

/-- The lower case hexadecimal digits of a number, at least `width` of them. -/
def hexDigits : Nat → Nat → List Char
  | 0, _ => []
  | width + 1, n => hexDigits width (n / 16) ++ [Text.hexDigit (n % 16)]

/-- Puts hyphens behind the 8th, 12th, 16th and 20th of 32 digits. -/
def hyphenate (cs : List Char) : List Char :=
  cs.take 8 ++ '-' :: (cs.drop 8).take 4 ++ '-' :: (cs.drop 12).take 4 ++
    '-' :: (cs.drop 16).take 4 ++ '-' :: cs.drop 20

/-- An id in groups of lower case digits. -/
def text (id : CommandId) : String :=
  String.ofList (hyphenate (hexDigits 32 id.toNat))

/-- The 32 digits of a text in groups; `none` when its hyphens are elsewhere. -/
def ungroup? (cs : List Char) : Option (List Char) :=
  let digits := cs.take 8 ++ (cs.drop 9).take 4 ++ (cs.drop 14).take 4 ++ (cs.drop 19).take 4 ++
    cs.drop 24
  if cs.length = 36 && hyphenate digits == cs then some digits else none

/-- The id that 32 digits of either case write. -/
def ofHex? (cs : List Char) : Option CommandId :=
  if cs.length = 32 then (Text.readDigits 16 Text.hexDigit? cs).map ofNat else none

/-- What may stand in front of the groups, in either case. -/
def resourceName : List Char := "urn:uuid:".toList

/-- The id that a text names: 32 digits, or the groups, which may stand in braces or behind
`urn:uuid:`. -/
def parse? (s : String) : Option CommandId :=
  let cs := s.toList
  if cs.length = 32 then ofHex? cs
  else if cs.length = 36 then (ungroup? cs).bind ofHex?
  else if cs.length = 38 && cs.head? == some '\x7b' && cs.getLast? == some '\x7d' then
    (ungroup? ((cs.drop 1).take 36)).bind ofHex?
  else if cs.length = 45 && (cs.take 9).map Char.toLower == resourceName then
    (ungroup? (cs.drop 9)).bind ofHex?
  else none

end CommandId

end BulkRun
