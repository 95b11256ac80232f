import ApiPrep.Cli.Run
import Std.Time.Zoned

namespace ApiPrep.Main

def variableNames : List String :=
  ["HOME", "XDG_CONFIG_HOME", "XDG_DATA_HOME", "NO_COLOR", "TERM", "OPNORM_KEBAB_FILE_NAMING",
    "OPNORM_MODEL_PACKAGE", "OPNORM_CATALOG"]

def environment : IO (List (Text × Text)) := do
  let found ← variableNames.mapM fun name => do
    return (← IO.getEnv name).map fun value => ((name : Text), (value : Text))
  return found.filterMap id

def stamp : IO String := do
  let now ← Std.Time.PlainDateTime.now
  let day := padded 4 now.date.year.toInt.toNat ++ padded 2 now.date.month.val.toNat ++
    padded 2 now.date.day.val.toNat
  let time := padded 2 now.time.hour.val.toNat ++ padded 2 now.time.minute.val.toNat ++
    padded 2 now.time.second.val.toNat
  return day ++ "-" ++ time

/-- The names of files that an argument may hold: it may be one, or end in one. -/
def namesIn (arg : String) : List String :=
  [arg, (arg.drop 2).toString, "=".intercalate ((arg.splitOn "=").drop 1)]

/-- A text as the system takes it; a half has no place in one. -/
def shown (t : Text) : String := String.ofList (t.escaped.toList.filterMap fun
  | .char c => some c
  | .half _ => none)

def pathOf (names : List Name) : String :=
  "/" ++ "/".intercalate (names.map fun n => shown n.text)

def look (names : List Name) : IO (Option Entry) := do
  let path := (← IO.currentDir) / pathOf names
  let .ok found ← path.metadata.toBaseIO | return none
  match found.type with
  | .dir => return some .directory
  | .file =>
    let .ok bytes ← (IO.FS.readBinFile path).toBaseIO | return none
    return some (.file bytes.toList)
  | _ => return none

def way (workDir : List Name) (path : Text) : List (List Name) :=
  let bytes := (path.nameBytes.toOption).getD []
  let steps := (Store.steps bytes).filter fun (step : Name) => step ≠ "" && step ≠ "."
  let step (ways : List (List Name)) (step : Name) : List (List Name) :=
    let names := ways.headD []
    (if step = ".." then names.dropLast else names ++ [step]) :: ways
  steps.foldl step [if path.startsWith "/" then [] else workDir]

/-- Adds to a store what paths lead to and through. -/
def survey (workDir : List Name) (store : Store) (paths : List Text) : IO Store := do
  let ways := ((Place.mk 1 (workDir.map Name.text)).text :: paths).flatMap (way workDir)
  ways.foldlM (fun store names => do
    if names.isEmpty || (store.get? names).isSome then return store
    match ← look names with
    | some e => return store.put names e
    | none => return store) store

def catalogsOf (layer : Except Failure (Option Entries)) : List Text :=
  match layer with
  | .ok (some entries) =>
    match entries.get? "catalog_file" with
    | some (.text name) => [name]
    | _ => []
  | _ => []

def inputOf (names : List Text) (h : Host) : IO Text := do
  if h.inputTerminal || !names.contains "-" then return ""
  let .ok text ← (← IO.getStdin).readToEnd.toBaseIO | return ""
  return ⟨(Text.unifyLines text.toList).map .char⟩

/-- Brings to the disk what a run has changed, the earliest change first. -/
def settle (before after : Store) : IO Unit :=
  after.entries.reverse.forM fun (names, e) => do
    if before.get? names == some e then return
    let path := (← IO.currentDir) / pathOf names
    match e with
    | .directory => IO.FS.createDirAll path
    | .file bytes => IO.FS.writeBinFile path ⟨bytes.toArray⟩

end ApiPrep.Main

open ApiPrep ApiPrep.Main in
def main (args : List String) : IO UInt32 := do
  let workDir := Store.steps (Text.Utf8.encode (← IO.currentDir).toString.toList)
  let workDir := workDir.filter (· ≠ ("" : Name))
  let host : Host :=
    { environment := ← environment
      workDir
      platform := "Linux"
      terminal := ← (← IO.getStdout).isTty
      inputTerminal := ← (← IO.getStdin).isTty
      fetch := fun _ => .failed "no network"
      usage := fun _ => "Usage: opnorm [OPTIONS] COMMAND [ARGS]...\n"
      stamp := (← stamp : String) }
  let folders := [host.settingsFolder, host.dataFolder.within "logs"]
  let settings := [host.settingsFolder.within "config.json", host.inWorkDir "opnorm.json"]
  let store ← survey workDir ⟨[]⟩ ((folders ++ settings).map Place.text)
  let named := (host.given? "OPNORM_CATALOG").toList ++
    catalogsOf (Settings.ofUser host store) ++ catalogsOf (Settings.ofProject host store)
  let names := named ++ (args.flatMap namesIn).map Text.ofString
  let store ← survey workDir store names
  let outcome := Cli.run ⟨host, store, ← inputOf names host⟩ (args.map Text.ofString)
  settle store outcome.traces.store
  (← IO.getStdout).putStr (shown outcome.traces.out)
  let notes := outcome.notes.map fun n => shown n.line ++ "\n"
  (← IO.getStderr).putStr (String.join notes ++ shown outcome.traces.diagnostics)
  return outcome.exitCode.toUInt32
