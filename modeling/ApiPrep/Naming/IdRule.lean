import ApiPrep.Failure
import ApiPrep.Naming.Fallback
import ApiPrep.Naming.FileNames

namespace ApiPrep.Naming

/-- A rule that turns a name into an operation id. It may take notes, and it may fail. -/
abbrev IdRule := Text → Attempt Text

namespace IdRule

def ofFunction (f : Text → Text) : IdRule := fun name => pure (f name)

def usual : IdRule := fun name => do
  if name = "" then Attempt.broken .emptyOperationId
  else
    let (id, renamed) := operationId name.toList
    let id := Text.ofList id
    if renamed then
      Attempt.note .debug
        (name ++ " (reserved word) cannot be used as method name. Renamed to " ++ id)
    return id

end IdRule

/-- The id of an operation: the one it has, or else its fallback, which is noted. -/
def idOrFallback (id : Option Text) (path method : Text) : Traced Text := do
  let given := id.getD ""
  if !Text.blank given.toList then return given
  else
    let name := Text.ofList (fallbackId path.toList method.toList)
    Traced.note .warning ("Empty operationId found for path: " ++ method ++ " " ++ path ++
      ". Renamed to auto-generated operationId: " ++ name)
    return name

end ApiPrep.Naming
