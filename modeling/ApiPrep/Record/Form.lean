import ApiPrep.Record.Issue
import ApiPrep.Text.Utf8
import ApiPrep.Value.Opened

namespace ApiPrep.Record

structure Label where
  wire : Text
  plain : Text
deriving DecidableEq, Repr

inductive Spelling where
  | wire
  | plain
deriving DecidableEq, Repr

def Label.spelled (l : Label) : Spelling → Text
  | .wire => l.wire
  | .plain => l.plain

/-- The value under either spelling, with the spelling that was found; the wire wins. -/
def Label.find? (l : Label) (entries : Entries) : Option (Text × Value) :=
  match entries.get? l.wire with
  | some value => some (l.wire, value)
  | none => (entries.get? l.plain).map fun value => (l.plain, value)

/-- How values of a type are read from documents and written to them. -/
structure Form (α : Type) where
  read : Value → Checked α
  write : Spelling → α → Value

namespace Form

variable {α : Type}

def readText : Value → Checked Text
  | .text s => .ok s
  | .scalar (.bytes content) =>
    match Text.Utf8.decode content with
    | .ok chars => .ok ⟨chars.map .char⟩
    | .error _ => .refuse .undecodable
  | _ => .refuse .noText

def text : Form Text where
  read := readText
  write _ s := .text s

def flagOfWord? (s : Text) : Option Bool :=
  let word := Text.ofList (s.toList.map Rune.toLower)
  if (["0", "off", "f", "false", "n", "no"] : List Text).contains word then some false
  else if (["1", "on", "t", "true", "y", "yes"] : List Text).contains word then some true
  else none

def machineSize : Int := 0x8000000000000000

/-- What a text is refused for that is none of the texts wanted: first of all for its halves. -/
def refuseText (s : Text) (c : Complaint) : Checked α :=
  .refuse (if s.isWhole then c else .undecodable)

def flagOfWord (s : Text) : Checked Bool :=
  match flagOfWord? s with
  | some b => .ok b
  | none => refuseText s .unclearFlag

/-- A truth value: one of its words, zero or one. Other whole numbers of machine size are
unclear, all else is of another kind. -/
def readFlag : Value → Checked Bool
  | .bool b => .ok b
  | .text s => flagOfWord s
  | .scalar (.bytes content) =>
    match Text.Utf8.decode content with
    | .ok chars => flagOfWord ⟨chars.map .char⟩
    | .error _ => .refuse .unclearFlag
  | .int n =>
    if n = 0 then .ok false
    else if n = 1 then .ok true
    else if -machineSize ≤ n ∧ n < machineSize then .refuse .unclearFlag
    else .refuse .noFlag
  | .float x =>
    match (Scalar.float x).integer? with
    | some n =>
      if n = 0 then .ok false
      else if n = 1 then .ok true
      else if -machineSize < n ∧ n < machineSize then .refuse .unclearFlag
      else .refuse .noFlag
    | none => .refuse .noFlag
  | _ => .refuse .noFlag

def flag : Form Bool where
  read := readFlag
  write _ b := .bool b

def word (options : List Text) : Form Text where
  read
    | .text s => if options.contains s then .ok s else refuseText s (.noOption options)
    | _ => .refuse (.noOption options)
  write _ s := .text s

def optional (f : Form α) : Form (Option α) where
  read
    | .null => .ok none
    | value => (f.read value).map some
  write spelling
    | none => .null
    | some a => f.write spelling a

def readItems (read : Value → Checked α) : (index : Nat) → List Value → Checked (List α)
  | _, [] => .ok []
  | index, item :: rest =>
    ((read item).within (.item index)).map List.cons |>.seq (readItems read (index + 1) rest)

/-- A sequence; `complaint` is raised about all that is none. -/
def sequence (complaint : Complaint) (f : Form α) : Form (List α) where
  read value :=
    match value.opened with
    | .list items => readItems f.read 0 items
    | .set members => readItems f.read 0 (members.map .scalar)
    | .pair key held => readItems f.read 0 [key, held]
    | _ => .refuse complaint
  write spelling items := .list (items.map (f.write spelling))

def list (f : Form α) : Form (List α) := sequence .noList f

/-- A list that is complete once it has been read. -/
def tuple (f : Form α) : Form (List α) := sequence .noTuple f

def record (title : Text) (read : Entries → Checked α) (write : Spelling → α → Entries) :
    Form α where
  read value :=
    match value.opened with
    | .map entries => read entries
    | _ => .refuse (.noRecord title)
  write spelling a := .map (write spelling a)

end Form

structure Member (α : Type) where
  label : Label
  form : Form α
  absent : Option α

namespace Member

variable {α : Type}

def required (wire plain : Text) (form : Form α) : Member α := ⟨⟨wire, plain⟩, form, none⟩

def orElse (wire plain : Text) (form : Form α) (absent : α) : Member α :=
  ⟨⟨wire, plain⟩, form, some absent⟩

def optional (wire plain : Text) (form : Form α) : Member (Option α) :=
  orElse wire plain (.optional form) none

def list (wire plain : Text) (form : Form α) : Member (List α) :=
  orElse wire plain (.list form) []

def tuple (wire plain : Text) (form : Form α) : Member (List α) :=
  orElse wire plain (.tuple form) []

def read (f : Member α) (entries : Entries) : Checked α :=
  match f.label.find? entries with
  | some (found, value) => (f.form.read value).within (.key found)
  | none =>
    match f.absent with
    | some a => .ok a
    | none => .faulty [⟨[.key f.label.wire], .missing⟩]

def write (f : Member α) (spelling : Spelling) (a : α) : Scalar × Value :=
  (.text (f.label.spelled spelling), f.form.write spelling a)

end Member

/-- An entry that is derived from others: it is written but never read. -/
def derived (spelling : Spelling) (wire plain : Text) (value : Value) : Scalar × Value :=
  (.text ((Label.mk wire plain).spelled spelling), value)

def Form.validate {α : Type} (f : Form α) (title : Text) (value : Value) : Except Report α :=
  (f.read value).report title

end ApiPrep.Record
