import ApiPrep.Naming.Identifier
import ApiPrep.Text.Quoted

namespace ApiPrep.Path

/-- A path with placeholders: what stands before the first of them, and each name with what
stands after it. -/
structure Template where
  lead : List Rune
  parts : List (List Rune × List Rune)
deriving DecidableEq, Repr

inductive Reason where
  | strayClose
  | emptyName
  | nestedOpen
  | neverClosed
deriving DecidableEq, Repr

def Reason.text : Reason → Text
  | .strayClose => "'\x7d' without a matching '\x7b'"
  | .emptyName => "empty placeholder"
  | .nestedOpen => "nested '\x7b' inside a placeholder"
  | .neverClosed => "'\x7b' is never closed"

structure Fault where
  path : Text
  position : Nat
  reason : Reason
deriving DecidableEq, Repr

def Fault.message (f : Fault) : Text :=
  "Malformed path template " ++ Text.quoted f.path ++ s!" at offset {f.position}: " ++ f.reason.text

namespace Template

def cons (c : Rune) (t : Template) : Template := { t with lead := c :: t.lead }

mutual

/-- Scans outside of placeholders; `here` is the offset of the text. -/
def scan (here : Nat) : List Rune → Except (Nat × Reason) Template
  | [] => .ok ⟨[], []⟩
  | '}' :: _ => .error (here, .strayClose)
  | '{' :: '}' :: _ => .error (here, .emptyName)
  | '{' :: rest => do
    let (name, t) ← scanName here (here + 1) rest
    return ⟨[], (name, t.lead) :: t.parts⟩
  | c :: rest => do
    let t ← scan (here + 1) rest
    return t.cons c

/-- Scans the rest of a name whose placeholder was opened at `start`. -/
def scanName (start here : Nat) : List Rune → Except (Nat × Reason) (List Rune × Template)
  | [] => .error (start, .neverClosed)
  | '{' :: _ => .error (here, .nestedOpen)
  | '}' :: rest => do
    let t ← scan (here + 1) rest
    return ([], t)
  | c :: rest => do
    let (name, t) ← scanName start (here + 1) rest
    return (c :: name, t)

end

def ofPath (path : Text) : Except Fault Template :=
  match scan 0 path.toList with
  | .ok t => .ok t
  | .error (position, reason) => .error ⟨path, position, reason⟩

def names (t : Template) : List Text := t.parts.map fun part => Text.ofList part.1

/-- The expression that puts a variable into a path. -/
def interpolation (name : List Rune) : List Rune :=
  "$\x7bencodeURIComponent(String(".runes ++ name ++ "))\x7d".runes

def rendered (varName : List Rune → List Rune) (t : Template) : List Rune :=
  t.lead ++ t.parts.flatMap fun part => interpolation (varName part.1) ++ part.2

end Template

/-- A path with an expression for each placeholder, whose names go through `varName`. -/
def interpolateWith (varName : List Rune → List Rune) (path : Text) : Except Fault Text := do
  let t ← Template.ofPath path
  return Text.ofList (t.rendered varName)

def interpolate (path : Text) : Except Fault Text := interpolateWith Naming.varName path

def placeholderNames (path : Text) : Except Fault (List Text) := do
  let t ← Template.ofPath path
  return t.names

end ApiPrep.Path
