import ApiPrep.Yaml.Token.Quoted

namespace ApiPrep.Yaml

inductive Chomping where
  | strip
  | clip
  | keep
deriving DecidableEq, Repr

structure BlockHeader where
  chomping : Chomping
  increment : Option Nat
deriving DecidableEq, Repr

def chomping? : Option Rune → Option Chomping
  | some '+' => some .keep
  | some '-' => some .strip
  | _ => none

def increment? (s : Cursor) : Except Fault (Option Nat × Cursor) :=
  match s.head? with
  | some c =>
    if c.isDigit then
      if c == '0' then malformed else .ok (some (c.toNat - '0'.toNat), s.next)
    else .ok (none, s)
  | none => .ok (none, s)

def blockHeader (s : Cursor) : Except Fault (BlockHeader × Cursor) := do
  let (header, s) ←
    match chomping? s.head? with
    | some chomping => do
      let (increment, s) ← increment? s.next
      .ok (⟨chomping, increment⟩, s)
    | none => do
      let (increment, s) ← increment? s
      match increment, chomping? s.head? with
      | some _, some chomping => .ok ((⟨chomping, increment⟩ : BlockHeader), s.next)
      | _, _ => .ok (⟨.clip, increment⟩, s)
  if endsEntry s.head? then return (header, ← ignoredLine s) else malformed

/-- Leading empty lines, and the greatest column that spaces reach on them and before the text. -/
def leadingLines : (fuel : Nat) → (column : Nat) → Cursor → (List Rune × Nat) × Cursor
  | 0, column, s => (([], column), s)
  | fuel + 1, column, s =>
    let s := s.skipWhile (· == ' ')
    let column := max column s.column
    match s.break? with
    | none => (([], column), s)
    | some (c, s) =>
      let ((breaks, column), s) := leadingLines fuel column s
      ((c :: breaks, column), s)

def emptyLines (indent : Nat) : (fuel : Nat) → Cursor → List Rune × Cursor
  | 0, s => ([], s)
  | fuel + 1, s =>
    let s := s.skipSpacesTo indent
    match s.break? with
    | none => ([], s)
    | some (c, s) =>
      let (breaks, s) := emptyLines indent fuel s
      (c :: breaks, s)

def Cursor.atWhite (s : Cursor) : Bool := (s.head?.map isWhite).getD false

/-- The lines of a block text from one on, of which `breaks` come before it; with the text go
the breaks that end it, the first of them apart. -/
def blockLines (fold : Bool) (indent : Nat) :
    (fuel : Nat) → (breaks : List Rune) → Cursor → (List Rune × Option Rune × List Rune) × Cursor
  | 0, breaks, s => (([], none, breaks), s)
  | fuel + 1, breaks, s =>
    let flush := !s.atWhite
    let (line, s) := s.takeWhile (!isBreak ·)
    let text := breaks ++ line
    let (first, s) := match s.break? with
      | some (c, s) => (some c, s)
      | none => (none, s)
    let (breaks, s) := emptyLines indent fuel s
    if s.column = indent ∧ !s.rest.isEmpty then
      let joint :=
        if fold && first == some (.char '\n') && flush && !s.atWhite then
          if breaks.isEmpty then [.char ' '] else []
        else first.toList
      let ((others, last, left), s) := blockLines fold indent fuel breaks s
      ((text ++ joint ++ others, last, left), s)
    else ((text, first, breaks), s)

def blockScalar (outer : Int) (s : Cursor) : Except Fault (List Rune × Cursor) := do
  let fold := s.at? '>'
  let (header, s) ← blockHeader s.next
  let least := max (outer + 1) 1 |>.toNat
  let (indent, breaks, s) :=
    match header.increment with
    | none =>
      let ((breaks, column), s) := leadingLines (s.rest.length + 1) 0 s
      (max least column, breaks, s)
    | some increment =>
      let indent := least + increment - 1
      let (breaks, s) := emptyLines indent (s.rest.length + 1) s
      (indent, breaks, s)
  let ((text, last, left), s) :=
    if s.column = indent ∧ !s.rest.isEmpty then
      blockLines fold indent (s.rest.length + 1) breaks s
    else (([], none, breaks), s)
  let ending := match header.chomping with
    | .strip => []
    | .clip => last.toList
    | .keep => last.toList ++ left
  return (text ++ ending, s)

end ApiPrep.Yaml
