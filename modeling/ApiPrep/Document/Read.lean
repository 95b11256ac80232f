import ApiPrep.Document
import ApiPrep.Naming.IdRule
import ApiPrep.Value.Opened
import ApiPrep.Value.Spelled

namespace ApiPrep.InputDocument

open Naming

def firstGiven (entries : Entries) (keys : List Text) (otherwise : Text) : Value :=
  ((keys.filterMap entries.get?).find? Value.given).getD (.text otherwise)

def madeUpId (rule : IdRule) (entries : Entries) : Attempt Text := do
  let method ← Attempt.spelled (firstGiven entries ["http_method", "httpMethod"] "get")
  let path ← Attempt.spelled (firstGiven entries ["path"] "")
  let name ← idOrFallback none path method
  rule name

def idKey (entries : Entries) : Text :=
  if entries.has "operation_id" then "operation_id" else "operationId"

def hasId (entries : Entries) : Bool :=
  match entries.get? (idKey entries) with
  | some id => id.given && !Text.blank id.plain.toList
  | none => false

/-- Goes on only if the value under the key of the id can be spelled out. -/
def checkId (entries : Entries) : Attempt Unit :=
  match entries.get? (idKey entries) with
  | some id => Attempt.spellable id
  | none => return ()

/-- Gives an operation an id if it has none, with what this assigns. What is no mapping stays as
it is. -/
def fillOperation (rule : IdRule) (operation : Value) : Attempt (Value × List Assignment) :=
  match operation.entries? with
  | some entries => do
    checkId entries
    if hasId entries then return (operation, [])
    else do
      let id ← madeUpId rule entries
      return operation.put (.text (idKey entries)) (.text id)
  | none => return (operation, [])

/-- Takes a step for each value, as it is after what has been assigned before. -/
def forEach (step : Value → Attempt (Value × List Assignment)) (made : List Assignment) :
    List Value → Attempt (List Value × List Assignment)
  | [] => return ([], made)
  | value :: rest => do
    let (value, more) ← step (value.after made)
    let (rest, made) ← forEach step (made ++ more) rest
    return (value :: rest, made)

def withItems (collection : Value) (items : List Value) : Value :=
  match collection, items with
  | .pair _ _, [first, second] => .pair first second
  | _, items => .list items

def forItems (key : Text) (step : Value → Attempt (Value × List Assignment))
    (collection : Value) (items : List Value) (entries : Entries) :
    Attempt (Entries × List Assignment) := do
  let (items, made) ← forEach step [] items
  return (entries.put (.text key) (withItems collection items), made)

/-- Goes over what is under a key if it is a list or a pair. Other collections and texts hold
nothing to go over, and neither does what counts as absent; all else breaks the run down. -/
def forEachUnder (key : Text) (step : Value → Attempt (Value × List Assignment))
    (entries : Entries) : Attempt (Entries × List Assignment) :=
  match (entries.get? key).map Value.opened with
  | none => return (entries, [])
  | some (.list items) => forItems key step (.list items) items entries
  | some (.pair first second) => forItems key step (.pair first second) [first, second] entries
  | some (.map _) | some (.set _) => return (entries, [])
  | some (.text _) | some (.scalar (.bytes _)) => return (entries, [])
  | some other => if other.given then Attempt.broken .noSequence else return (entries, [])

def fillGroup (rule : IdRule) (group : Value) : Attempt (Value × List Assignment) :=
  match group.entries? with
  | some entries => do
    let (entries, made) ← forEachUnder "operations" (fillOperation rule) entries
    return (.map entries, made)
  | none => return (group, [])

def fillIds (rule : IdRule) (entries : Entries) : Attempt Entries := do
  let (entries, _) ← forEachUnder "groups" (fillGroup rule) entries
  return entries

def ofEntries (rule : IdRule) (entries : Entries) : Attempt InputDocument := do
  if !entries.has "groups" && !entries.has "models" then
    Attempt.refused (.input .noSections)
  else
    let filled ← fillIds rule entries
    match form.validate title (.map filled) with
    | .ok d => return d
    | .error report => Attempt.refused (.input (.invalid report))

end ApiPrep.InputDocument
