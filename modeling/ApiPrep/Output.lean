import ApiPrep.Host
import ApiPrep.Json.Writer
import ApiPrep.Value.Spelled

namespace ApiPrep

inductive Format where
  | json
  | plain
  | rich
deriving DecidableEq, Repr

def Format.word : Format → Text
  | .json => "json"
  | .plain => "plain"
  | .rich => "rich"

/-- What is done to the world outside: a text goes to the output or to the diagnostics, or a
file gets a text after what it holds or in its place. -/
inductive Effect where
  | out (text : Text)
  | diagnose (text : Text)
  | append (path text : Text)
  | replace (path text : Text)
  | fail (b : Breakdown)
deriving DecidableEq, Repr

structure Output where
  format : Format
  quiet : Bool
  file : Option Text
deriving DecidableEq, Repr

namespace Output

structure Options where
  format : Text := "auto"
  noColor : Bool := false
  quiet : Bool := false
  file : Option Text := none
deriving DecidableEq, Repr

/-- The format that a word stands for. Where it is left open, a terminal with colours gets the
rich one. -/
def formatOf (h : Host) (noColor : Bool) (word : Text) : Except Breakdown Format :=
  if word = "auto" then
    .ok (if h.terminal && !(noColor || h.colourless) then .rich else .plain)
  else
    match [Format.json, .plain, .rich].find? (·.word = word) with
    | some format => .ok format
    | none => .error (.unknownFormat word)

def make (h : Host) (o : Options) : Except Breakdown Output := do
  let format ← formatOf h o.noColor o.format
  return ⟨format, o.quiet, o.file.filter (· ≠ ("" : Text))⟩

def usual (h : Host) : Output :=
  ⟨if h.terminal && !h.colourless then .rich else .plain, false, none⟩

def lineOf (text : Text) : Text := if text.endsWith "\n" then text else text ++ "\n"

/-- Writes a text; a file gets no line end where the text has one. -/
def data (o : Output) (text : Text) : Effect :=
  match o.file with
  | some path => .append path (lineOf text)
  | none => .out (text ++ "\n")

/-- Writes a value as JSON, if it can be spelled out; a file then holds nothing else. -/
def document (o : Output) (v : Value) : Effect :=
  match v.obstacle? with
  | some b => .fail b
  | none =>
    match o.file with
    | some path => .replace path (Json.write v ++ "\n")
    | none => .out (Json.write v ++ "\n")

/-- A row under the headers of its columns; of columns of one name the last counts. -/
def record (headers row : List Text) : Value :=
  .map (Entries.ofList ((headers.zip row).map fun (header, cell) => (.text header, .text cell)))

def table (o : Output) (headers : List Text) (rows : List (List Text)) : List Effect :=
  match o.format with
  | .json => [o.data (Json.write (.list (rows.map (record headers))))]
  | _ => (headers :: rows).map fun cells => o.data (Text.intercalate "\t" cells)

def info (o : Output) (message : Text) : List Effect :=
  if o.quiet then [] else [.diagnose (message ++ "\n")]

def error (message : Text) : Text := "Error: " ++ message ++ "\n"

end Output

structure Traces where
  store : Store
  out : Text := ""
  diagnostics : Text := ""

namespace Traces

def tell (t : Traces) (text : Text) : Traces :=
  { t with diagnostics := t.diagnostics ++ text.escaped }

def print (t : Traces) (text : Text) : Traces × Option Breakdown :=
  match text.bytes with
  | .ok _ => ({ t with out := t.out ++ text }, none)
  | .error l => (t, some (.unencodable l))

/-- Does what an effect says. Where it breaks down, what it has done by then is left. -/
def apply (h : Host) (t : Traces) : Effect → Traces × Option Breakdown
  | .out text => t.print text
  | .diagnose text => (t.tell text, none)
  | .append path text =>
    let done := t.store.append h.workDir path text
    ({ t with store := done.1 }, done.2)
  | .replace path text =>
    let done := t.store.replace h.workDir path text
    ({ t with store := done.1 }, done.2)
  | .fail b => (t, some b)

/-- Does what effects say one after the other, up to the first that fails. -/
def applyAll (h : Host) (t : Traces) : List Effect → Traces × Option Breakdown
  | [] => (t, none)
  | e :: rest =>
    match t.apply h e with
    | (t, none) => t.applyAll h rest
    | (t, some b) => (t, some b)

end Traces

end ApiPrep
