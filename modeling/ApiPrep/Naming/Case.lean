import ApiPrep.Text.Blank
import ApiPrep.Text.Case.Lower
import ApiPrep.Text.Case.Upper
import ApiPrep.Text.Digit
import ApiPrep.Text.Pieces

namespace ApiPrep.Naming

open Text

/-- Sets an underscore before the last capital of a run that a small letter follows. -/
def markAcronyms : List Rune → List Rune
  | a :: b :: c :: rest =>
    if a.isUpper && b.isUpper && c.isLower then a :: '_' :: markAcronyms (b :: c :: rest)
    else a :: markAcronyms (b :: c :: rest)
  | s => s

/-- Sets an underscore between a small letter or a digit and a capital. -/
def markWords : List Rune → List Rune
  | a :: b :: rest =>
    if (a.isLower || isDigit a) && b.isUpper then a :: '_' :: markWords (b :: rest)
    else a :: markWords (b :: rest)
  | s => s

def underscore (s : List Rune) : List Rune :=
  lower ((markWords (markAcronyms s)).map fun (c : Rune) => if c = '-' then '_' else c)

def dashize (s : List Rune) : List Rune :=
  (underscore s).map fun (c : Rune) => if c = '_' ∨ c = ' ' then '-' else c

def isSeparator (c : Rune) : Bool := c == '-' || c == '_' || c == '.' || c == '/' || isBlank c

def capitalized : List Rune → List Rune
  | [] => []
  | c :: rest => upperChar c ++ rest

def uncapitalized : List Rune → List Rune
  | [] => []
  | c :: rest => lower [c] ++ rest

/-- Words joined with a capital each; their other letters stay as they are. -/
def camelize (s : List Rune) : List Rune := (wordsBy isSeparator s).flatMap capitalized

def lowerCamelize (s : List Rune) : List Rune := uncapitalized (camelize s)

def isNameChar (c : Rune) : Bool := c.isAlphanum || c == '_'

/-- A name with underscores for dashes, blanks and points, and without all else that is no
part of an identifier. -/
def sanitize (s : List Rune) : List Rune :=
  (s.map fun (c : Rune) => if c = '-' ∨ c = '.' ∨ isBlank c then .char '_' else c).filter isNameChar

end ApiPrep.Naming
