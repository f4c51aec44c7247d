import BulkRun.Settings.Value
/-!
# Paths of settings

A setting is found by a path of names with points between them, where a name is made of letters,
digits, spaces, underscores and hyphens of ASCII.  Behind a name may stand the index of an item in
brackets.
-/

namespace BulkRun.SettingValue

/-- A character of a name. -/
def isNameChar (c : Char) : Bool := c.isAlphanum || c == ' ' || c == '_' || c == '-'

/-- The name in front of a text. -/
def takeName (cs : List Char) : Option (String × List Char) :=
  match cs.takeWhile isNameChar with
  | [] => none
  | name => some (String.ofList name, cs.drop name.length)

/-- The index in brackets that a text begins with, after its opening bracket. -/
def takeIndex (cs : List Char) : Option (Int × List Char) :=
  let isSpace (c : Char) : Bool := c == ' ' || c == '\t'
  let cs := cs.dropWhile isSpace
  let (sign, cs) := match cs with
    | '-' :: rest => (['-'], rest)
    | _ => ([], cs)
  let digits := cs.takeWhile Char.isDigit
  match Text.readSignedWord (String.ofList (sign ++ digits)),
      (cs.drop digits.length).dropWhile isSpace with
  | some i, ']' :: rest => some (i, rest)
  | _, _ => none

/-- The steps that a text goes on with, at most so many. -/
def moreSteps : Nat → List Char → Option (List Step)
  | _, [] => some []
  | 0, _ => none
  | count + 1, '.' :: rest =>
    match takeName rest with
    | none => none
    | some (key, rest) => (moreSteps count rest).map (.name key :: ·)
  | count + 1, '[' :: rest =>
    match takeIndex rest with
    | none => none
    | some (i, rest) => (moreSteps count rest).map (.item i :: ·)
  | _ + 1, _ => none

/-- The path that a text writes. -/
def parsePath? (s : String) : Option (List Step) :=
  match takeName s.toList with
  | none => none
  | some (key, rest) => (moreSteps rest.length rest).map (.name key :: ·)

/-- A table with a value put where a text says; a text that is no path is taken as a single name. -/
def put (below : SettingValue) (key : String) (v : SettingValue) : SettingValue :=
  putAt v ((parsePath? key).getD [.name key]) below

end BulkRun.SettingValue
