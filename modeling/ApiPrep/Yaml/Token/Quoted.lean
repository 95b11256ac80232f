import ApiPrep.Yaml.Token.Names

namespace ApiPrep.Yaml

/-- Breaks and the white space around them, as long as no separator of documents stands at the
start of a line. -/
def lineBreaks : (fuel : Nat) → Cursor → Except Fault (List Rune × Cursor)
  | 0, s => .ok ([], s)
  | fuel + 1, s =>
    if s.atSeparator then malformed
    else
      let s := s.skipWhile isWhite
      match s.break? with
      | none => .ok ([], s)
      | some (c, s) => do
        let (breaks, s) ← lineBreaks fuel s
        return (c :: breaks, s)

/-- What a first break and those after it stand for: a lone line feed is a space, and the line
feed before others is nothing. -/
def folded (first : Rune) (others : List Rune) : List Rune :=
  if first ≠ '\n' then first :: others
  else if others.isEmpty then [' ']
  else others

def quotedSpaces (fuel : Nat) (s : Cursor) : Except Fault (List Rune × Cursor) :=
  let (blanks, s) := s.takeWhile isWhite
  if s.rest.isEmpty then malformed
  else
    match s.break? with
    | none => .ok (blanks, s)
    | some (first, s) => do
      let (others, s) ← lineBreaks fuel s
      return (folded first others, s)

def escapes : List (Rune × Rune) :=
  [('0', '\x00'), ('a', '\x07'), ('b', '\x08'), ('t', '\t'), ('\t', '\t'), ('n', '\n'),
    ('v', '\x0b'), ('f', '\x0c'), ('r', '\r'), ('e', '\x1b'), (' ', ' '), ('"', '"'),
    ('\\', '\\'), ('/', '/'), ('N', '\x85'), ('_', '\xa0'), ('L', '\u2028'), ('P', '\u2029')]

def codeDigits : List (Rune × Nat) := [('x', 2), ('u', 4), ('U', 8)]

def charOfCode (code : Nat) : Except Fault Rune :=
  if 0x7FFFFFFF < code then .error (.broken .overflow)
  else if 0x10FFFF < code then .error (.broken .badCodePoint)
  else .ok (Rune.ofNat code)

def escaped (s : Cursor) : Except Fault (List Rune × Cursor) :=
  match s.head? with
  | none => malformed
  | some c =>
    match escapes.lookup c, codeDigits.lookup c with
    | some stands, _ => .ok ([stands], s.next)
    | none, some size =>
      match ((s.rest.drop 1).take size).mapM Decimal.hexDigit? with
      | some digits =>
        if digits.length < size then malformed
        else do
          let stands ← charOfCode (Decimal.ofDigits 16 digits)
          return ([stands], s.skip (size + 1))
      | none => malformed
    | none, none =>
      match s.break? with
      | some (_, s) => lineBreaks (s.rest.length + 1) s
      | none => malformed

def endsStretch (c : Rune) : Bool :=
  c == '\x27' || c == '"' || c == '\\' || isWhite c || isBreak c

def quotedWord (double : Bool) : (fuel : Nat) → Cursor → Except Fault (List Rune × Cursor)
  | 0, s => .ok ([], s)
  | fuel + 1, s => do
    let (plain, s) := s.takeWhile (!endsStretch ·)
    let (more, after) : List Rune × Cursor ←
      match s.head? with
      | some '\x27' =>
        if double then .ok ([.char '\x27'], s.next)
        else if s.ahead? 1 == some (.char '\x27') then .ok ([.char '\x27'], s.skip 2)
        else .ok ([], s)
      | some '"' => .ok (if double then ([], s) else ([.char '"'], s.next))
      | some '\\' => if double then escaped s.next else .ok ([.char '\\'], s.next)
      | _ => .ok ([], s)
    if after.index = s.index then return (plain, s)
    else
      let (others, s) ← quotedWord double fuel after
      return (plain ++ more ++ others, s)

def quotedRest (double : Bool) : (fuel : Nat) → Cursor → Except Fault (List Rune × Cursor)
  | 0, _ => malformed
  | fuel + 1, s => do
    let (word, s) ← quotedWord double fuel s
    if s.at? (if double then '"' else '\x27') then return (word, s.next)
    else
      let (spaces, s) ← quotedSpaces fuel s
      let (others, s) ← quotedRest double fuel s
      return (word ++ spaces ++ others, s)

def quotedScalar (s : Cursor) : Except Fault (List Rune × Cursor) :=
  quotedRest (s.at? '"') (s.rest.length + 1) s.next

end ApiPrep.Yaml
