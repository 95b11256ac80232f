import ApiPrep.Store

namespace ApiPrep

inductive Fetched where
  | answered (status : Nat) (contentType : Text) (body : List UInt8)
  | failed (why : Text)
deriving DecidableEq, Repr

/-- What does not change while a program runs. -/
structure Host where
  environment : List (Text × Text)
  workDir : List Name
  platform : Text
  terminal : Bool
  inputTerminal : Bool
  fetch : Text → Fetched
  /-- The help of a command, or of the program. -/
  usage : Option Text → String
  stamp : Text

namespace Host

def get? (h : Host) (name : Text) : Option Text := h.environment.lookup name

def given? (h : Host) (name : Text) : Option Text := (h.get? name).filter (· ≠ ("" : Text))

def home (h : Host) : Place :=
  .ofText ((h.given? "HOME").getD "/")

/-- Whether settings and data have directories of their own under the user's. -/
def separatesFolders (h : Host) : Bool := h.platform == "Linux" || h.platform.endsWith "BSD"

def program : Text := "opnorm"

/-- The directory that a variable names, or else the one at the end of names. -/
def folder (h : Host) (setting : Text) (names : List Text) : Place :=
  let base := match h.given? setting with
    | some text => Place.ofText text
    | none => names.foldl Place.within h.home
  base.within program

def settingsFolder (h : Host) : Place :=
  if h.separatesFolders then h.folder "XDG_CONFIG_HOME" [".config"]
  else h.home.within ("." ++ program)

def dataFolder (h : Host) : Place :=
  if h.separatesFolders then h.folder "XDG_DATA_HOME" [".local", "share"]
  else (h.home.within ("." ++ program)).within "data"

def inWorkDir (h : Host) (name : Text) : Place := (Place.mk 1 (h.workDir.map Name.text)).within name

/-- Whether colours are off: by a variable that is set to anything, or by a plain terminal. -/
def colourless (h : Host) : Bool :=
  (h.get? "NO_COLOR").isSome || h.get? "TERM" == some ("dumb" : Text)

end Host

end ApiPrep
