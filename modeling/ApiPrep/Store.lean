import ApiPrep.Failure
import ApiPrep.Store.Place

namespace ApiPrep

inductive Entry where
  | directory
  | file (bytes : List UInt8)
deriving DecidableEq, Repr

/-- The name of a file or a directory, which is made of bytes. -/
structure Name where
  bytes : List UInt8
deriving DecidableEq, Repr

instance : Coe String Name := ⟨fun s => ⟨Text.Utf8.encode s.toList⟩⟩

def Name.text (n : Name) : Text := .ofNameBytes n.bytes

/-- Files and directories by the names that lead to them from the root. -/
structure Store where
  entries : List (List Name × Entry)
deriving DecidableEq, Repr

namespace Store

def longestName : Nat := 255

def longestPath : Nat := 4095

/-- What stands at the end of names that lead there from the root, which is a directory. -/
def get? (s : Store) (names : List Name) : Option Entry :=
  if names.isEmpty then some .directory else s.entries.lookup names

def put (s : Store) (names : List Name) (e : Entry) : Store :=
  ⟨(names, e) :: s.entries.filter (·.1 ≠ names)⟩

def pathBytes (path : Text) : Except Breakdown (List UInt8) :=
  match path.nameBytes with
  | .error l => .error (.unencodable l)
  | .ok bytes => if bytes.contains 0 then .error .nullByte else .ok bytes

def slash : UInt8 := 47

def steps (path : List UInt8) : List Name := (Text.splitBy (· == slash) path).map Name.mk

/-- Follows steps from a directory; where they end need not exist. -/
def follow (s : Store) (names : List Name) : List Name → Except Breakdown (List Name)
  | [] => .ok names
  | step :: rest =>
    match s.get? names with
    | none => .error .noSuchFile
    | some (.file _) => .error .noDirectory
    | some .directory =>
      if step = "" ∨ step = "." then follow s names rest
      else if step = ".." then follow s names.dropLast rest
      else if longestName < step.bytes.length then .error .nameTooLong
      else follow s (names ++ [step]) rest

def locate (s : Store) (workDir : List Name) (path : Text) : Except Breakdown (List Name) :=
  match pathBytes path with
  | .error b => .error b
  | .ok bytes =>
    if bytes = [] then .error .noSuchFile
    else if longestPath < bytes.length then .error .nameTooLong
    else s.follow (if bytes.head? = some slash then [] else workDir) (steps bytes)

/-- The bytes of the file at a path, if one is there. Only a name that is too long breaks the
search down. -/
def file? (s : Store) (workDir : List Name) (path : Text) :
    Except Breakdown (Option (List UInt8)) :=
  match s.locate workDir path with
  | .error .nameTooLong => .error .nameTooLong
  | .error _ => .ok none
  | .ok names =>
    match s.get? names with
    | some (.file bytes) => .ok (some bytes)
    | _ => .ok none

def isDirectory (s : Store) (workDir : List Name) (path : Text) : Bool :=
  match s.locate workDir path with
  | .error _ => false
  | .ok names => s.get? names == some .directory

def makeSteps (s : Store) (names : List Name) : List Name → Except Breakdown Store
  | [] => .ok s
  | step :: rest =>
    if step = "" ∨ step = "." then makeSteps s names rest
    else if step = ".." then makeSteps s names.dropLast rest
    else if longestName < step.bytes.length then .error .nameTooLong
    else
      match s.get? (names ++ [step]) with
      | none => makeSteps (s.put (names ++ [step]) .directory) (names ++ [step]) rest
      | some .directory => makeSteps s (names ++ [step]) rest
      | some (.file _) => .error (if rest.isEmpty then .fileInTheWay else .noDirectory)

def makeDirectory (s : Store) (workDir : List Name) (p : Place) : Except Breakdown Store :=
  match pathBytes p.text with
  | .error b => .error b
  | .ok bytes => s.makeSteps (if p.root = 0 then workDir else []) (steps bytes)

/-- The names of a file that is to be written. A path that ends in a slash names none. -/
def target (s : Store) (workDir : List Name) (path : Text) :
    Except Breakdown (List Name) := do
  let bare := Text.ofList ((path.toList.reverse.dropWhile (· == .char '/')).reverse)
  let names ← s.locate workDir (if bare = "" then path else bare)
  match s.get? names with
  | some .directory => throw .isDirectory
  | some (.file _) => if bare = path then return names else throw .noDirectory
  | none =>
    if bare ≠ path then throw .isDirectory
    else
      let _ ← s.follow names.dropLast [""]
      return names

def bytes? (s : Store) (names : List Name) : Option (List UInt8) :=
  match s.get? names with
  | some (.file bytes) => some bytes
  | _ => none

/-- Writes a text to a file after what `keep` leaves there. The file is opened before the text
becomes bytes: where it has none, nothing but its opening is left. -/
def write (s : Store) (workDir : List Name) (path : Text) (keep : List UInt8 → List UInt8)
    (text : Text) : Store × Option Breakdown :=
  match s.target workDir path with
  | .error b => (s, some b)
  | .ok names =>
    let kept := keep ((s.bytes? names).getD [])
    match text.bytes with
    | .ok bytes => (s.put names (.file (kept ++ bytes)), none)
    | .error l => (s.put names (.file kept), some (.unencodable l))

def replace (s : Store) (workDir : List Name) (path text : Text) : Store × Option Breakdown :=
  s.write workDir path (fun _ => []) text

def append (s : Store) (workDir : List Name) (path text : Text) : Store × Option Breakdown :=
  s.write workDir path id text

def textOf (bytes : List UInt8) : Except Breakdown Text :=
  match Text.Utf8.decode bytes with
  | .ok s => .ok ⟨(Text.unifyLines s).map .char⟩
  | .error f => .error (.undecodable f)

end Store

end ApiPrep
