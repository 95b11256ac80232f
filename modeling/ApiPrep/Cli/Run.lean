import ApiPrep.Catalog.Describe
import ApiPrep.Cli.Request
import ApiPrep.Normalized.Normalize
import ApiPrep.Output
import ApiPrep.Settings.Resolve
import ApiPrep.Source

namespace ApiPrep.Cli

/-- A failure that is no refusal, and the place of its log unless that failed too. -/
structure Crash where
  failure : Failure
  log : Except Breakdown Text

structure Outcome where
  exitCode : Nat
  traces : Traces
  notes : List Note
  crash : Option Crash := none

def version : Text := "0.1.0"

def activeCatalog (s : Source) (settings : Settings) : Attempt Catalog :=
  let name := settings.catalogFile.getD ""
  if name = "" then Catalog.standard .usual else s.catalog name

def noDocument : Text := "No document piped to stdin; pass a file path or URL instead of '-'"

def tally (d : NormalizedDocument) : Text :=
  let promoted := (d.groups.filter (·.isGenericBase)).length
  s!"Normalised {d.groups.length} group(s), {promoted} promoted to a generic base."

/-- Normalises the document of a source. The input that the catalog is read from is used up. -/
def normalize (s : Source) (o : Output) (source : Text) (catalog : Option Text)
    (kebab : Option Bool) : Attempt (List Effect) := do
  if source = "-" ∧ s.host.inputTerminal then Attempt.refused (.usage noDocument)
  let settings ← Settings.resolve s.host s.store (Settings.Overrides.entries { kebab, catalog })
  let c ← activeCatalog s settings
  let document ← (s.after (settings.catalogFile.getD "")).document source
  let result ← (document.normalize c settings).adapt fun f => .refused (.path f)
  return o.info (tally result) ++
    [o.document (NormalizedDocument.form.write .wire result)]

def interpolate (o : Output) (path : Text) : Attempt (List Effect) := do
  let template ← Attempt.ofExcept ((Path.interpolate path).mapError fun f => .refused (.path f))
  return [o.data template]

def listCatalog (s : Source) (o : Output) (name : Option Text) : Attempt (List Effect) := do
  let settings ← Settings.resolve s.host s.store (Settings.Overrides.entries { catalog := name })
  let c ← activeCatalog s settings
  return o.table Catalog.headers c.rows

def effects (s : Source) (o : Output) : Task → Attempt (List Effect)
  | .help c => return [.out (s.host.usage (some c.name))]
  | .normalize source name kebab => normalize s o source name kebab
  | .interpolate path => interpolate o path
  | .catalog name => listCatalog s o name

def keeps (verbose : Bool) (n : Note) : Bool := verbose || n.level = .warning

def account : Failure → Text
  | .broken b => b.message ++ "\n"
  | .invalid r => r.summary ++ "\n"
  | .refused r => r.message ++ "\n"

def log (h : Host) (store : Store) (f : Failure) : Except Breakdown (Store × Text) := do
  let store ← store.makeDirectory h.workDir h.dataFolder
  let folder := h.dataFolder.within "logs"
  let store ← store.makeDirectory h.workDir folder
  let place := (folder.within ("crash-" ++ h.stamp ++ ".log")).text
  match store.replace h.workDir place (account f) with
  | (store, none) => return (store, place)
  | (_, some b) => throw b

/-- Ends a run that has failed. A refusal is told; anything else is logged. -/
def failed (h : Host) (t : Traces) (notes : List Note) (f : Failure) : Outcome :=
  match f with
  | .refused r => ⟨r.exitCode, t.tell (Output.error r.message), notes, none⟩
  | f =>
    match log h t.store f with
    | .ok (store, place) =>
      let told := Output.error ("Unexpected error. Debug log: " ++ place)
      ⟨1, { t with store }.tell told, notes, some ⟨f, .ok place⟩⟩
    | .error b => ⟨1, t.tell (account f), notes, some ⟨f, .error b⟩⟩

def misused (h : Host) (t : Traces) (m : Misuse) : Outcome :=
  { exitCode := 2, traces := t.tell (h.usage none ++ m.message ++ "\n"), notes := [] }

def perform (s : Source) (g : General) (o : Output) (task : Task) : Outcome :=
  let attempt := (effects s o task).run
  let notes := attempt.notes.filter (keeps g.verbose)
  match attempt.value with
  | .error f => failed s.host { store := s.store } notes f
  | .ok effects =>
    match Traces.applyAll s.host { store := s.store } effects with
    | (t, none) => { exitCode := 0, traces := t, notes }
    | (t, some b) => failed s.host t notes (.broken b)

/-- Runs a command: its arguments are read once the settings are known. -/
def runCommand (s : Source) (g : General) (c : Command) (args : List Text) : Outcome :=
  match Settings.prepare s.host s.store with
  | .error f => failed s.host { store := s.store } [] f
  | .ok store =>
    let s := { s with store }
    let asked := Settings.Overrides.entries { format := g.format }
    match (Settings.resolve s.host store asked).run.value with
    | .error f => failed s.host { store } [] f
    | .ok settings =>
      match Output.make s.host ⟨settings.outputFormat, g.noColor, g.quiet, g.file⟩ with
      | .error b => failed s.host { store } [] (.broken b)
      | .ok o =>
        match c.task args with
        | .error m => misused s.host { store } m
        | .ok task => perform s g o task

def said (s : Source) (text : Text) : Outcome :=
  { exitCode := 0, traces := { store := s.store, out := text }, notes := [] }

def run (s : Source) (args : List Text) : Outcome :=
  match Request.ofArguments args with
  | .error m => misused s.host { store := s.store } m
  | .ok .version => said s (Host.program ++ " " ++ version ++ "\n")
  | .ok .help => said s (s.host.usage none)
  | .ok (.command g c args) => runCommand s g c args

end ApiPrep.Cli
