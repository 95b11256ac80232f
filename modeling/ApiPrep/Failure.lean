import ApiPrep.Calendar
import ApiPrep.Json.Reader
import ApiPrep.Path.Template
import ApiPrep.Record.Issue
import ApiPrep.Text.Utf8
import ApiPrep.Trace
import ApiPrep.Value.Shown

namespace ApiPrep

/-- Why a run breaks down where nothing is reported about its input. -/
inductive Breakdown where
  | emptyOperationId
  | noSequence
  | noTruthWord
  | noTimestamp
  | noText
  | noDigits
  | overflow
  | tooDeep
  | undecodable (f : Text.Utf8.Fault)
  | unencodable (l : Text.Utf8.Lone)
  | noSuchFile
  | isDirectory
  | noDirectory
  | fileInTheWay
  | nameTooLong
  | nullByte
  | badInteger (text : Text) (base : Nat)
  | badFloat (text : Text)
  | badMoment (f : CalendarFault)
  | tooManyDigits (count : Option Nat)
  | badCodePoint
  | unknownFormat (word : Text)
deriving DecidableEq, Repr

namespace Breakdown

def mostShown : Nat := 200

def message : Breakdown → Text
  | .emptyOperationId => "Empty method/operation name (operationId) not allowed"
  | .noSequence => "the value holds no items"
  | .noTruthWord => "the word stands for no truth value"
  | .noTimestamp => "the text is no timestamp"
  | .noText => "a collection stands where a text should"
  | .noDigits => "the number has no digits"
  | .overflow => "the number is too large"
  | .tooDeep => "maximum recursion depth exceeded"
  | .undecodable f => f.message
  | .unencodable l => l.message
  | .noSuchFile => "No such file or directory"
  | .isDirectory => "Is a directory"
  | .noDirectory => "Not a directory"
  | .fileInTheWay => "File exists"
  | .nameTooLong => "File name too long"
  | .nullByte => "embedded null byte"
  | .badInteger text base =>
    s!"invalid literal for int() with base {base}: " ++
      Text.ofList ((Text.quoted text).toList.take mostShown)
  | .badFloat text => "could not convert string to float: " ++ Text.quoted text
  | .badMoment f => f.message
  | .tooManyDigits count => Decimal.tooManyDigits count
  | .badCodePoint => "chr() arg not in range(0x110000)"
  | .unknownFormat word => Text.quoted word ++ " is not a valid OutputFormat"

end Breakdown

inductive InputFault where
  | noInput
  | noFile (path : Text)
  | emptyFile (path : Text)
  | status (code : Nat) (url : Text)
  | unreachable (url why : Text)
  | badJson (f : Json.Fault)
  | unreadable (json : Option Json.Fault)
  | noObject (kind : Text)
  | noSections
  | invalid (report : Record.Report)
deriving DecidableEq, Repr

def InputFault.message : InputFault → Text
  | .noInput => "No input received from stdin"
  | .noFile path => "Input file not found: " ++ path
  | .emptyFile path => "Input file is empty: " ++ path
  | .status code url => s!"HTTP {code} fetching document from " ++ url
  | .unreachable url why => "Failed to fetch document from " ++ url ++ ": " ++ why
  | .badJson f => "Invalid JSON: " ++ f.message
  | .unreadable json =>
    "Failed to parse document as JSON or YAML" ++
      (json.elim ("" : Text) fun f => "\n  JSON error: " ++ f.message) ++ "\n  YAML error:"
  | .noObject kind => "Document must be a JSON/YAML object (got " ++ kind ++ ")"
  | .noSections => "Document has neither 'groups' nor 'models'"
  | .invalid report => "Invalid operations document: " ++ report.summary

inductive CatalogFault where
  | noSignatures
  | nameless (signature : Text)
  | invalid (report : Record.Report)
  | unloadable (source : Text) (f : InputFault)
deriving DecidableEq, Repr

def CatalogFault.message : CatalogFault → Text
  | .noSignatures => "Catalog must contain a non-empty 'signatures' list"
  | .nameless signature => "Catalog signature without a name: " ++ signature
  | .invalid report => "Invalid signature catalog: " ++ report.summary
  | .unloadable source f => "Cannot load catalog from " ++ source ++ ": " ++ f.message

inductive SettingsFault where
  | broken (label path why : Text)
  | noObject (label path : Text)
  | badFlag (name value : Text)
  | invalid (report : Record.Report)
deriving DecidableEq, Repr

def SettingsFault.message : SettingsFault → Text
  | .broken label path why => "Invalid " ++ label ++ " at " ++ path ++ ": " ++ why
  | .noObject label path => "Invalid " ++ label ++ " at " ++ path ++ ": expected a JSON object"
  | .badFlag name value =>
    "Environment variable " ++ name ++ " must be a boolean, got " ++ Text.quoted value
  | .invalid report => "Invalid configuration: " ++ report.summary

inductive Refusal where
  | input (f : InputFault)
  | path (f : Path.Fault)
  | catalog (f : CatalogFault)
  | settings (f : SettingsFault)
  | usage (message : Text)
deriving DecidableEq, Repr

def Refusal.message : Refusal → Text
  | .input f => f.message
  | .path f => f.message
  | .catalog f => f.message
  | .settings f => f.message
  | .usage message => message

def Refusal.exitCode : Refusal → Nat
  | .input _ => 7
  | .path _ => 8
  | .catalog _ => 9
  | .settings _ => 1
  | .usage _ => 2

def Refusal.issues? : Refusal → Option Record.Report
  | .input (.invalid r) => some r
  | .catalog (.invalid r) => some r
  | .settings (.invalid r) => some r
  | _ => none

/-- Why a step fails: with a refusal, with the bare issues of a record, or without either. -/
inductive Failure where
  | refused (r : Refusal)
  | invalid (r : Record.Report)
  | broken (b : Breakdown)
deriving DecidableEq, Repr

/-- A step that takes notes and may fail; the notes are kept if it does. -/
abbrev Attempt := ExceptT Failure Traced

namespace Attempt

variable {α : Type}

def ofExcept (x : Except Failure α) : Attempt α := ExceptT.mk (pure x)

def refused (r : Refusal) : Attempt α := throw (.refused r)

def broken (b : Breakdown) : Attempt α := throw (.broken b)

def note (level : Level) (text : Text) : Attempt Unit := ExceptT.lift (Traced.note level text)

end Attempt

end ApiPrep
