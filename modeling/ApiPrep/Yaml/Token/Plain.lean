import ApiPrep.Yaml.Token.Quoted

namespace ApiPrep.Yaml

def isFlowSign (c : Rune) : Bool := c == ',' || c == '[' || c == ']' || c == '{' || c == '}'

def endsPlain (flow : Bool) (c : Rune) (next : Option Rune) : Bool :=
  isWhite c || isBreak c ||
    (c == ':' && (endsWord next || (flow && (next.map isFlowSign).getD false))) ||
    (flow && (c == '?' || isFlowSign c))

def plainSize (flow : Bool) : List Rune → Nat
  | [] => 0
  | c :: rest => if endsPlain flow c rest.head? then 0 else plainSize flow rest + 1

def plainBreaks : (fuel : Nat) → Cursor → Option (List Rune) × Cursor
  | 0, s => (some [], s)
  | fuel + 1, s =>
    if s.atSeparator then (none, s)
    else
      let s := s.skipWhile (· == ' ')
      match s.break? with
      | none => (some [], s)
      | some (c, s) =>
        let (breaks, s) := plainBreaks fuel s
        (breaks.map (c :: ·), s)

/-- What the space after a stretch of plain text stands for, and whether a line ended. Nothing
comes of it where no text may follow. -/
def plainSpaces (fuel : Nat) (s : Cursor) : List Rune × Bool × Cursor :=
  let (blanks, s) := s.takeWhile (· == ' ')
  match s.break? with
  | none => (blanks, false, s)
  | some (first, s) =>
    let (breaks, s) := plainBreaks fuel s
    ((breaks.map (folded first)).getD [], true, s)

def plainScalar (flow : Bool) (indent : Int) :
    (fuel : Nat) → (ended : Bool) → Cursor → (List Rune × Bool) × Cursor
  | 0, ended, s => (([], ended), s)
  | fuel + 1, ended, s =>
    let size := plainSize flow s.rest
    if s.at? '#' ∨ size = 0 then (([], ended), s)
    else
      let text := s.rest.take size
      let (spaces, ended, s) := plainSpaces fuel (s.skip size)
      if spaces.isEmpty ∨ s.at? '#' ∨ (!flow ∧ (s.column : Int) < indent) then ((text, ended), s)
      else
        let more := plainScalar flow indent fuel ended s
        if more.1.1.isEmpty then ((text, more.1.2), more.2)
        else ((text ++ spaces ++ more.1.1, more.1.2), more.2)

end ApiPrep.Yaml
