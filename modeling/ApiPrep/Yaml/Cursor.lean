import ApiPrep.Failure

namespace ApiPrep.Yaml

inductive Fault where
  | malformed
  | broken (b : Breakdown)
deriving DecidableEq, Repr

structure Cursor where
  rest : List Rune
  index : Nat := 0
  line : Nat := 0
  column : Nat := 0
deriving Repr

def isBreak (c : Rune) : Bool :=
  c == '\n' || c == '\r' || c == '\x85' || c == '\u2028' || c == '\u2029'

def isWhite (c : Rune) : Bool := c == ' ' || c == '\t'

def endsWord : Option Rune → Bool
  | none => true
  | some c => isWhite c || isBreak c

def endsEntry : Option Rune → Bool
  | none => true
  | some c => c == ' ' || isBreak c

def endsLine : Option Rune → Bool
  | none => true
  | some c => isBreak c

def isWordChar (c : Rune) : Bool := c.isAlphanum || c == '-' || c == '_'

namespace Cursor

def head? (s : Cursor) : Option Rune := s.rest.head?

def ahead? (s : Cursor) (n : Nat) : Option Rune := s.rest[n]?

def at? (s : Cursor) (c : Rune) : Bool := s.head? == some c

/-- One character further; a byte order mark takes no column. -/
def next (s : Cursor) : Cursor :=
  match s.rest with
  | [] => s
  | c :: rest =>
    if isBreak c && !(c == '\r' && rest.head? == some (.char '\n')) then
      ⟨rest, s.index + 1, s.line + 1, 0⟩
    else if c == '\ufeff' then ⟨rest, s.index + 1, s.line, s.column⟩
    else ⟨rest, s.index + 1, s.line, s.column + 1⟩

def skip (s : Cursor) : (n : Nat) → Cursor
  | 0 => s
  | n + 1 => s.next.skip n

def takeWhile (p : Rune → Bool) (s : Cursor) : List Rune × Cursor :=
  let taken := s.rest.takeWhile p
  (taken, s.skip taken.length)

def skipWhile (p : Rune → Bool) (s : Cursor) : Cursor := (s.takeWhile p).2

def skipSpacesTo (s : Cursor) (column : Nat) : Cursor :=
  s.skip ((s.rest.takeWhile (· == .char ' ')).take (column - s.column)).length

def break? (s : Cursor) : Option (Rune × Cursor) :=
  match s.rest with
  | '\r' :: '\n' :: _ => some ('\n', s.skip 2)
  | c :: _ =>
    if c == '\n' || c == '\r' || c == '\x85' then some ('\n', s.next)
    else if isBreak c then some (c, s.next)
    else none
  | [] => none

/-- Whether the given three characters stand here as a word of their own. -/
def atMark (s : Cursor) (mark : Rune) : Bool :=
  s.rest.take 3 == [mark, mark, mark] && endsWord (s.ahead? 3)

def atSeparator (s : Cursor) : Bool := s.atMark '-' || s.atMark '.'

end Cursor

end ApiPrep.Yaml
