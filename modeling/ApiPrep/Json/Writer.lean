import ApiPrep.Value.Shown

namespace ApiPrep.Json

/-- Floats are written as in messages, but for the values that are no numbers. -/
def floatLayout : Decimal.Layout := { shownFloat with infinity := "Infinity", undefined := "NaN" }

def writtenChar (c : Rune) : List Rune :=
  if c = '"' then ['\\', '"']
  else if c = '\\' then ['\\', '\\']
  else if c = '\n' then ['\\', 'n']
  else if c = '\r' then ['\\', 'r']
  else if c = '\t' then ['\\', 't']
  else if c = '\x08' then ['\\', 'b']
  else if c = '\x0c' then ['\\', 'f']
  else if c.toNat < 0x20 then '\\' :: 'u' :: Text.hex 4 c.toNat
  else [c]

def writtenText (s : Text) : List Rune := '"' :: (s.toList.flatMap writtenChar ++ [.char '"'])

/-- A scalar outside quotes where it has such a form; dates and bytes are texts. -/
def writtenScalar : Scalar → List Rune
  | .null => "null".runes
  | .bool b => (if b then "true" else "false").runes
  | .int n => (toString n).runes
  | .float x => (floatLayout.write x).runes
  | .text s => writtenText s
  | .date d => writtenText d.iso
  | .moment t => writtenText (t.iso " ")
  | .bytes content => writtenText (Text.quotedBytes content)

def writtenKey : Scalar → List Rune
  | .text s => writtenText s
  | .date d => writtenText d.iso
  | .moment t => writtenText (t.iso " ")
  | .bytes content => writtenText (Text.quotedBytes content)
  | key => '"' :: (writtenScalar key ++ [.char '"'])

def newLine (depth : Nat) : List Rune := '\n' :: List.replicate (2 * depth) ' '

mutual

/-- A value within `depth` open brackets, each item and each member on a line of its own. A set
is a text. -/
def written (depth : Nat) : Value → List Rune
  | .scalar s => writtenScalar s
  | .list [] => ['[', ']']
  | .list (item :: rest) =>
    '[' :: (newLine (depth + 1) ++ written (depth + 1) item ++ writtenItems (depth + 1) rest ++
      newLine depth ++ [.char ']'])
  | .map [] => ['{', '}']
  | .map ((key, held) :: rest) =>
    '{' :: (newLine (depth + 1) ++ writtenKey key ++ [.char ':', .char ' '] ++
      written (depth + 1) held ++ writtenMembers (depth + 1) rest ++ newLine depth ++ [.char '}'])
  | .set members => writtenText (Value.set members).shown
  | .pair key held =>
    '[' :: (newLine (depth + 1) ++ written (depth + 1) key ++ (.char ',' :: newLine (depth + 1)) ++
      written (depth + 1) held ++ newLine depth ++ [.char ']'])
  | .marked _ collection => written depth collection
  | .again mark => writtenText (Value.again mark).shown

def writtenItems (depth : Nat) : List Value → List Rune
  | [] => []
  | item :: rest => ',' :: (newLine depth ++ written depth item ++ writtenItems depth rest)

def writtenMembers (depth : Nat) : List (Scalar × Value) → List Rune
  | [] => []
  | (key, held) :: rest =>
    ',' :: (newLine depth ++ writtenKey key ++ [.char ':', .char ' '] ++ written depth held ++
      writtenMembers depth rest)

end

def write (v : Value) : Text := Text.ofList (written 0 v)

end ApiPrep.Json
