import ApiPrep.Naming.Reserved
import ApiPrep.Text.Blank
import ApiPrep.Text.Pieces

namespace ApiPrep.Naming

/-- Adds a name to names in increasing order, once. -/
def insertName (name : Text) : List Text → List Text
  | [] => [name]
  | n :: rest =>
    if name < n then name :: n :: rest
    else if name = n then n :: rest
    else n :: insertName name rest

def namesOf (entry : Text) : List Text :=
  (Text.splitBy (· == .char '|') entry.toList).map fun piece => Text.ofList (Text.trim piece)

def isImported (name : Text) : Bool := name ≠ "" && !primitiveTypes.contains name

/-- The types that entries name, each once and in increasing order. -/
def typeNames (entries : List Text) : List Text :=
  ((entries.flatMap namesOf).filter isImported).foldr insertName []

end ApiPrep.Naming
