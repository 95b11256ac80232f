import ApiPrep.Host
import ApiPrep.Settings

namespace ApiPrep.Settings

open Record

structure Overrides where
  kebab : Option Bool := none
  catalog : Option Text := none
  format : Option Text := none
deriving DecidableEq, Repr

def given (fields : List (Text × Option Value)) : Entries :=
  fields.filterMap fun (name, value) => value.map fun v => (.text name, v)

def Overrides.entries (o : Overrides) : Entries :=
  given [("kebab_file_naming", o.kebab.map .bool), ("catalog_file", o.catalog.map .text),
    ("output_format", o.format.map .text)]

def trueWords : List Text := ["1", "true", "yes", "on"]

def falseWords : List Text := ["0", "false", "no", "off"]

/-- The truth value that a variable stands for, with blanks around it and in any case. -/
def flagOfVariable (name value : Text) : Except SettingsFault Bool :=
  let word := Naming.respell (fun s => Text.lower (Text.trim s)) value
  if trueWords.contains word then .ok true
  else if falseWords.contains word then .ok false
  else .error (.badFlag name value)

def kebabVariable : Text := "OPNORM_KEBAB_FILE_NAMING"

def ofEnvironment (h : Host) : Except SettingsFault Entries := do
  let kebab ← match h.given? kebabVariable with
    | none => pure none
    | some value => (flagOfVariable kebabVariable value).map some
  return given [("kebab_file_naming", kebab.map .bool),
    ("model_package", (h.given? "OPNORM_MODEL_PACKAGE").map .text),
    ("catalog_file", (h.given? "OPNORM_CATALOG").map .text)]

/-- Settings that are given in layers, each of which wins over those before it. -/
def ofLayers (layers : List Entries) : Except SettingsFault Settings :=
  match form.validate title (.map (layers.foldl Entries.merge [])) with
  | .ok s => .ok s
  | .error report => .error (.invalid report)

def ofContent (label path : Text) (bytes : List UInt8) : Except Failure Entries :=
  let refuse (f : SettingsFault) : Except Failure Entries := .error (.refused (.settings f))
  match Store.textOf bytes with
  | .error b => refuse (.broken label path b.message)
  | .ok text =>
    match Json.read text with
    | .ok (.map entries) => .ok entries
    | .ok _ => refuse (.noObject label path)
    | .error .tooDeep => .error (.broken .tooDeep)
    | .error f => refuse (.broken label path f.message)

def ofFile (h : Host) (store : Store) (label : Text) (p : Place) :
    Except Failure (Option Entries) :=
  match store.file? h.workDir p.text with
  | .error b => .error (.broken b)
  | .ok none => .ok none
  | .ok (some bytes) => (ofContent label p.text bytes).map some

def prepare (h : Host) (store : Store) : Except Failure Store :=
  (store.makeDirectory h.workDir h.settingsFolder).mapError .broken

def ofUser (h : Host) (store : Store) : Except Failure (Option Entries) :=
  ofFile h store "user config" (h.settingsFolder.within "config.json")

def ofProject (h : Host) (store : Store) : Except Failure (Option Entries) :=
  ofFile h store "project config" (h.inWorkDir "opnorm.json")

/-- The settings of the user, the project, the environment and a last layer, the later winning,
once the user's directory has been made. -/
def resolve (h : Host) (store : Store) (last : Entries) : Attempt Settings := do
  let user ← Attempt.ofExcept (ofUser h store)
  let project ← Attempt.ofExcept (ofProject h store)
  let layered : Except SettingsFault Settings := do
    let environment ← ofEnvironment h
    ofLayers [user.getD [], project.getD [], environment, last]
  match layered with
  | .error f => Attempt.refused (.settings f)
  | .ok s =>
    Attempt.note .debug ("Resolved configuration: " ++ (form.write .plain s).shown)
    return s

end ApiPrep.Settings
