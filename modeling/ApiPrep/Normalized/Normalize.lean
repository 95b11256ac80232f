import ApiPrep.Normalized.Imports
import ApiPrep.Path.Template
import ApiPrep.Settings

namespace ApiPrep

def Operation.decorate (op : Operation) : Except Path.Fault ClientOperation := do
  let path ← Path.interpolate op.path
  return { op with httpMethod := Naming.respell Text.lower op.httpMethod, path := path }

namespace OperationGroup

/-- The imports of a group: those it carries, or else one for each type of its operations. -/
def importsOrDerived (f : Naming.FileNames) (g : OperationGroup) : List ImportRecord :=
  if g.imports.isEmpty then
    (importedTypes g.operations).map fun name => { source := f.modelImport name }
  else g.imports

def pruned (s : Settings) (promotion : Option Promotion) (surviving : List Operation)
    (imports : List ImportRecord) : Traced (List ImportRecord) :=
  match promotion with
  | none => pure imports
  | some p =>
    let needed := neededEnvelopes surviving (some p.entityType) s.envelopeTypes
    pruneImports s.envelopeTypes needed imports

/-- Promotes a group if it can be, renders the operations that it keeps, and resolves its
imports. -/
def normalize (c : Catalog) (s : Settings) (g : OperationGroup) :
    ExceptT Path.Fault Traced NormalizedGroup := do
  let promotion ← Promotion.detect c s.affixes g.operations
  let surviving := (promotion.map (·.remaining)).getD g.operations
  let operations ← ExceptT.mk (pure (surviving.mapM Operation.decorate))
  let resolved := (g.importsOrDerived s.fileNames).map (·.resolve s.fileNames)
  let imports ← pruned s promotion surviving resolved
  let promoted := if promotion.isSome then "True" else "False"
  Traced.note .debug
    ("Normalised " ++ g.classname ++
      s!": {operations.length} operations, {imports.length} imports, generic={promoted}")
  return ⟨g.classname, s.fileNames.apiFileOfClass g.classname, operations, imports, promotion⟩

end OperationGroup

def InputDocument.normalize (c : Catalog) (s : Settings) (d : InputDocument) :
    ExceptT Path.Fault Traced NormalizedDocument := do
  let groups ← d.groups.mapM fun g => g.normalize c s
  return ⟨groups, d.models.map (·.resolve s.fileNames)⟩

end ApiPrep
