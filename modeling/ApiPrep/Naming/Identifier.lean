import ApiPrep.Naming.Case
import ApiPrep.Naming.Reserved
import ApiPrep.Text.WordChar

namespace ApiPrep.Naming

open Text

/-- Whether a text starts with a digit of any script. -/
def startsWithDigit (s : List Rune) : Bool := (s.head?.map isDigit).getD false

/-- The method name of a non-empty operation id, and whether it had to be renamed. -/
def operationId (id : List Rune) : List Rune × Bool :=
  if isReserved id then (lowerCamelize ("call_".runes ++ id), true)
  else (lowerCamelize (sanitize id), false)

def varName (name : List Rune) : List Rune :=
  let plain := name.map fun c => if isWordChar c || c == '$' then c else '_'
  if plain = [.char '_'] then ['_', 'u']
  else if plain.all fun c => c.isUpper || c == '_' then plain
  else
    let joined := lowerCamelize plain
    if isReserved joined || startsWithDigit joined then '_' :: joined else joined

def modelName (name : List Rune) : List Rune :=
  let plain := sanitize (dashize name)
  if isReserved plain || startsWithDigit plain then camelize ("model_".runes ++ plain)
  else camelize plain

def tagName (tag : List Rune) : List Rune :=
  let joined := camelize (sanitize (dashize tag))
  if startsWithDigit joined then "Class".runes ++ joined else joined

end ApiPrep.Naming
