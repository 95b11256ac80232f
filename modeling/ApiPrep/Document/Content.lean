import ApiPrep.Value.Opened
import ApiPrep.Yaml.Reader

namespace ApiPrep

inductive Hint where
  | json
  | yaml
  | unknown
deriving DecidableEq, Repr

def entriesOf (value : Value) : Except Failure Entries :=
  match value.entries? with
  | some entries => .ok entries
  | none => .error (.refused (.input (.noObject value.kind)))

/-- Reads YAML after an attempt at JSON, of whose fault it may have to tell. -/
def readYaml (json : Option Json.Fault) (content : Text) : Except Failure Entries :=
  match Yaml.read content with
  | .ok .null => .error (.refused (.input (.noObject "empty document")))
  | .ok value => entriesOf value
  | .error .malformed => .error (.refused (.input (.unreadable json)))
  | .error (.broken b) => .error (.broken b)

/-- Reads a content as JSON, unless it is known to be YAML, and else as YAML, unless it is known
to be JSON. -/
def readContent (hint : Hint) (content : Text) : Except Failure Entries :=
  if hint = .yaml then readYaml none content
  else
    match Json.read content with
    | .ok value => entriesOf value
    | .error .tooDeep => .error (.broken .tooDeep)
    | .error (.tooManyDigits count) => .error (.broken (.tooManyDigits (some count)))
    | .error (.malformed reason line column offset) =>
      let f := Json.Fault.malformed reason line column offset
      if hint = .json then .error (.refused (.input (.badJson f)))
      else readYaml (some f) content

end ApiPrep
