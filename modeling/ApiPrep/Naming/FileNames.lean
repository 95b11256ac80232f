import ApiPrep.Naming.Identifier

namespace ApiPrep.Naming

open Text

def respell (rule : List Rune → List Rune) (s : Text) : Text := Text.ofList (rule s.toList)

structure FileNames where
  kebab : Bool := true
  modelPackage : Text := "model"
  apiPackage : Text := "api"
deriving DecidableEq, Repr

namespace FileNames

def modelFile (f : FileNames) (name : Text) : Text :=
  if f.kebab then respell dashize name
  else
    let model := respell modelName name
    if model = respell upper model then model else respell lowerCamelize model

def modelImport (f : FileNames) (name : Text) : Text :=
  f.modelPackage ++ "/" ++ f.modelFile name

def modelOfFile (f : FileNames) (filename : Text) : Text :=
  respell (fun s => camelize (dropLead (f.modelPackage ++ "/").toList s)) filename

/-- The service class of a stem. -/
def apiName (name : Text) : Text := if name = "" then "DefaultService" else name ++ "Service"

def apiFile (f : FileNames) (name : Text) : Text :=
  if name = "" then "default.service"
  else if f.kebab then respell dashize name ++ ".service"
  else if name = respell upper name then name ++ ".service"
  else respell lowerCamelize name ++ ".service"

def apiImport (f : FileNames) (name : Text) : Text := f.apiPackage ++ "/" ++ f.apiFile name

def apiFileOfClass (f : FileNames) (classname : Text) : Text :=
  f.apiFile (respell (dropEnding "Service".runes) classname)

end FileNames

end ApiPrep.Naming
