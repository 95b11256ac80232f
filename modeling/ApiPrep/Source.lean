import ApiPrep.Catalog.Read
import ApiPrep.Document.Content
import ApiPrep.Document.Read
import ApiPrep.Host
import ApiPrep.Text.Charset

namespace ApiPrep

/-- Where documents come from: the files, and what is left of the input. -/
structure Source where
  host : Host
  store : Store
  input : Text

namespace Source

def refuse {α : Type} (f : InputFault) : Except Failure α := .error (.refused (.input f))

def hintOfEnding (ending : Text) : Hint :=
  let ending := Naming.respell Text.lower ending
  if ending = ".json" then .json
  else if ending = ".yaml" ∨ ending = ".yml" then .yaml
  else .unknown

def holds (part : List Rune) : List Rune → Bool
  | [] => part.isEmpty
  | c :: rest => part.isPrefixOf (c :: rest) || holds part rest

def hintOfType (contentType : Text) : Hint :=
  if holds "json".runes contentType.toList then .json
  else if holds "yaml".runes contentType.toList || holds "yml".runes contentType.toList then
    .yaml
  else .unknown

def ofInput (s : Source) : Except Failure Entries :=
  if Text.blank s.input.toList then refuse .noInput else readContent .unknown s.input

def ofAddress (s : Source) (url : Text) : Except Failure Entries :=
  match s.host.fetch url with
  | .failed why => refuse (.unreachable url why)
  | .answered status contentType body =>
    if 200 ≤ status ∧ status < 300 then
      let charset := (Text.Charset.ofType? contentType).getD .utf8
      readContent (hintOfType contentType) (Text.ofList (charset.decode body))
    else refuse (.status status url)

def ofFile (s : Source) (path : Text) : Except Failure Entries := do
  let place := Place.ofText path
  match s.store.file? s.host.workDir place.text with
  | .error b => .error (.broken b)
  | .ok none => refuse (.noFile path)
  | .ok (some bytes) =>
    match Store.textOf bytes with
    | .error b => .error (.broken b)
    | .ok content =>
      if Text.blank content.toList then refuse (.emptyFile path)
      else readContent (hintOfEnding place.ending) content

/-- Reads a document from the input, which a dash stands for, from a web address or a file. -/
def entries (s : Source) (name : Text) : Except Failure Entries :=
  if name = "-" then s.ofInput
  else if name.startsWith "http://" || name.startsWith "https://" then s.ofAddress name
  else s.ofFile name

/-- The source after a document has been read: the input can be read once. -/
def after (s : Source) (name : Text) : Source := if name = "-" then { s with input := "" } else s

def document (s : Source) (name : Text) : Attempt InputDocument := do
  let entries ← Attempt.ofExcept (s.entries name)
  InputDocument.ofEntries .usual entries

def catalog (s : Source) (name : Text) : Attempt Catalog := do
  match s.entries name with
  | .error (.refused (.input f)) => Attempt.refused (.catalog (.unloadable name f))
  | .error f => throw f
  | .ok entries =>
    let c ← Catalog.ofEntries .usual entries
    Attempt.note .debug (s!"Loaded {c.signatures.length} canonical signatures from " ++ name)
    return c

end Source

end ApiPrep
