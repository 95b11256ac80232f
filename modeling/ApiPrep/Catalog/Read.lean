import ApiPrep.Catalog
import ApiPrep.Naming.IdRule
import ApiPrep.Value.Spelled

namespace ApiPrep.Catalog

open Record Naming

/-- The catalog of signatures and a creation; a flaw counts as an issue of the whole. -/
def assemble (signatures : List Signature) (creation : Text) : Except Report Catalog :=
  (check (signatures, creation)).report title

def requiredId : Parameter :=
  { baseName := some "id", dataType := some "number", dataFormat := some "int64",
    required := true }

def historyQuery : List Parameter :=
  [{ baseName := some "datumOd", dataType := some "string", dataFormat := some "date-time" },
    { baseName := some "DatumDo", dataType := some "string", dataFormat := some "date-time" },
    { baseName := some "maxPocet", dataType := some "number", dataFormat := some "int32" }]

/-- The signatures of the conventional back end under their raw names. -/
def conventional : List Signature :=
  [{ name := "Add", httpMethod := "GET" },
    { name := "Item", httpMethod := "GET", pathParams := [requiredId] },
    { name := "Delete", httpMethod := "DELETE", pathParams := [requiredId] },
    { name := "Save", httpMethod := "PUT", hasBody := true },
    { name := "List", httpMethod := "GET" },
    { name := "History", httpMethod := "GET", pathParams := [requiredId],
      queryParams := historyQuery }]

def usualCreation : Text := "Add"

def renamed (rule : IdRule) (s : Signature) : Attempt Signature := do
  let name ← rule s.name
  return { s with name := name }

def standard (rule : IdRule) : Attempt Catalog := do
  let signatures ← conventional.mapM (renamed rule)
  let creation ← rule usualCreation
  match assemble signatures creation with
  | .ok c => return c
  | .error report => throw (.invalid report)

def refuseNameless (raw : Value) : Attempt Signature := do
  Attempt.spellable raw
  Attempt.refused (.catalog (.nameless raw.shown))

def signatureOfValue (rule : IdRule) (raw : Value) : Attempt Signature :=
  match raw.entries? with
  | some entries =>
    if ((entries.get? "name").map Value.given).getD false then
      match Signature.form.validate Signature.title raw with
      | .ok s => renamed rule s
      | .error report => Attempt.refused (.catalog (.invalid report))
    else refuseNameless raw
  | none => refuseNameless raw

/-- Reads a catalog document, in which signatures have raw names. -/
def ofEntries (rule : IdRule) (entries : Entries) : Attempt Catalog :=
  match (entries.get? "signatures").bind Value.items? with
  | some (first :: rest) => do
    let signatures ← (first :: rest).mapM (signatureOfValue rule)
    let creation ← Attempt.spelled ((entries.get? "creation").getD (.text usualCreation))
    let creation ← rule creation
    match assemble signatures creation with
    | .ok c => return c
    | .error report => Attempt.refused (.catalog (.invalid report))
  | _ => Attempt.refused (.catalog .noSignatures)

end ApiPrep.Catalog
