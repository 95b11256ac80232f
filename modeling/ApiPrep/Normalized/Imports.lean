import ApiPrep.Naming.FileNames
import ApiPrep.Naming.TypeNames
import ApiPrep.Normalized
import ApiPrep.Trace

namespace ApiPrep

open Naming

def ImportRecord.resolve (f : FileNames) (r : ImportRecord) : ImportRecord :=
  { r with filename := some r.source, classname := some (f.modelOfFile r.source) }

/-- The envelopes that are still needed: the entity's own type, and what an operation returns. -/
def neededEnvelopes (surviving : List Operation) (entityType : Option Text)
    (envelopes : List Text) : List Text :=
  let returned := (surviving.filterMap (·.returnBaseType)).filter (· ≠ ("" : Text))
  envelopes.filter fun e => some e == entityType || returned.contains e

/-- The records but for those of envelopes that are not needed; each of these is noted. -/
def pruneImports (envelopes needed : List Text) : List ImportRecord → Traced (List ImportRecord)
  | [] => pure []
  | r :: rest => do
    let dropped := r.classname.filter fun name => envelopes.contains name && !needed.contains name
    match dropped with
    | some name =>
      Traced.note .debug ("Pruning unused envelope import " ++ name)
      pruneImports envelopes needed rest
    | none =>
      let others ← pruneImports envelopes needed rest
      return r :: others

def importedTypes (operations : List Operation) : List Text :=
  typeNames (operations.flatMap (·.imports))

/-- What the file of a model imports: all types that it names but itself. -/
def SchemaModel.resolve (f : FileNames) (m : SchemaModel) : ModelImports :=
  let names := (typeNames m.imports).filter (· ≠ m.classname)
  ⟨m, names.map fun name => ⟨name, f.modelFile name⟩⟩

end ApiPrep
