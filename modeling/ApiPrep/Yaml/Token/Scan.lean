import ApiPrep.Yaml.Token.Block
import ApiPrep.Yaml.Token.Plain

namespace ApiPrep.Yaml

/-- A place that becomes a key if a colon follows: the number of its first token, whether only
a key may stand there, and where it is. -/
structure Candidate where
  token : Nat
  required : Bool
  index : Nat
  line : Nat
  column : Nat
deriving Repr

/-- The state of reading tokens. Candidates are kept by the number of open flow brackets. -/
structure Scanner where
  place : Cursor
  tokens : Array Token := #[]
  indent : Int := -1
  outer : List Int := []
  flow : Nat := 0
  mayStartKey : Bool := true
  candidates : List (Nat × Candidate) := []

namespace Scanner

def push (s : Scanner) (t : Token) : Scanner := { s with tokens := s.tokens.push t }

def moveTo (s : Scanner) (c : Cursor) : Scanner := { s with place := c }

def isStale (s : Scanner) (c : Candidate) : Bool :=
  c.line != s.place.line || c.index + 1024 < s.place.index

def dropStale (s : Scanner) : Except Fault Scanner :=
  if s.candidates.any fun c => s.isStale c.2 && c.2.required then malformed
  else .ok { s with candidates := s.candidates.filter fun c => !s.isStale c.2 }

def candidate? (s : Scanner) : Option Candidate := s.candidates.lookup s.flow

def dropCandidate (s : Scanner) : Except Fault Scanner :=
  if (s.candidate?.map (·.required)).getD false then malformed
  else .ok { s with candidates := s.candidates.filter (·.1 != s.flow) }

def offerKey (s : Scanner) : Except Fault Scanner :=
  if s.mayStartKey then do
    let required := s.flow == 0 && s.indent == (s.place.column : Int)
    let s ← s.dropCandidate
    let here : Candidate :=
      ⟨s.tokens.size, required, s.place.index, s.place.line, s.place.column⟩
    return { s with candidates := (s.flow, here) :: s.candidates }
  else return s

def unwindFrom (column : Int) (indent : Int) (tokens : Array Token) :
    List Int → Int × List Int × Array Token
  | [] => (indent, [], tokens)
  | up :: outer =>
    if column < indent then unwindFrom column up (tokens.push .blockEnd) outer
    else (indent, up :: outer, tokens)

def unwind (s : Scanner) (column : Int) : Scanner :=
  if s.flow ≠ 0 then s
  else
    let (indent, outer, tokens) := unwindFrom column s.indent s.tokens s.outer
    { s with indent := indent, outer := outer, tokens := tokens }

def openBlock (s : Scanner) (column : Nat) (t : Token) (number : Nat) : Scanner :=
  if s.indent < (column : Int) then
    { s with indent := column, outer := s.indent :: s.outer,
             tokens := s.tokens.insertIdxIfInBounds number t }
  else s

/-- Skips spaces, comments and breaks. After a break a key may start, but not within brackets. -/
def skipBlank : (fuel : Nat) → Scanner → Scanner
  | 0, s => s
  | fuel + 1, s =>
    let place := s.place.skipWhile (· == ' ')
    let place := if place.at? '#' then place.skipWhile (!isBreak ·) else place
    match place.break? with
    | none => s.moveTo place
    | some (_, place) =>
      skipBlank fuel { s with place := place, mayStartKey := s.mayStartKey || s.flow == 0 }

def fetchNode (s : Scanner) (read : Cursor → Except Fault (Token × Cursor)) :
    Except Fault Scanner := do
  let s ← s.offerKey
  let (t, place) ← read s.place
  return { s with place := place, tokens := s.tokens.push t, mayStartKey := false }

def fetchPlain (s : Scanner) (fuel : Nat) : Except Fault Scanner := do
  let s ← s.offerKey
  let ((text, ended), place) :=
    plainScalar (s.flow != 0) (s.indent + 1) fuel false s.place
  return { s with
    place := place, tokens := s.tokens.push (.scalar text true), mayStartKey := ended }

def fetchBlockScalar (s : Scanner) : Except Fault Scanner := do
  let s ← s.dropCandidate
  let (text, place) ← blockScalar s.indent s.place
  return { s with
    place := place, tokens := s.tokens.push (.scalar text false), mayStartKey := true }

def fetchOutside (s : Scanner) (read : Cursor → Except Fault (Token × Cursor)) :
    Except Fault Scanner := do
  let s ← (s.unwind (-1)).dropCandidate
  let (t, place) ← read s.place
  return { s with place := place, tokens := s.tokens.push t, mayStartKey := false }

def fetchOpening (s : Scanner) (t : Token) : Except Fault Scanner := do
  let s ← s.offerKey
  return { s.push t with place := s.place.next, flow := s.flow + 1, mayStartKey := true }

def fetchClosing (s : Scanner) (t : Token) : Except Fault Scanner := do
  let s ← s.dropCandidate
  return { s.push t with place := s.place.next, flow := s.flow - 1, mayStartKey := false }

def fetchFlowEntry (s : Scanner) : Except Fault Scanner := do
  let s ← s.dropCandidate
  return { s.push .flowEntry with place := s.place.next, mayStartKey := true }

def openHere (s : Scanner) (t : Token) : Except Fault Scanner :=
  if s.flow ≠ 0 then .ok s
  else if s.mayStartKey then .ok (s.openBlock s.place.column t s.tokens.size)
  else malformed

def fetchBlockEntry (s : Scanner) : Except Fault Scanner := do
  let s ← s.openHere .blockSequenceStart
  let s ← s.dropCandidate
  return { s.push .blockEntry with place := s.place.next, mayStartKey := true }

def fetchKey (s : Scanner) : Except Fault Scanner := do
  let s ← s.openHere .blockMappingStart
  let s ← s.dropCandidate
  return { s.push .key with place := s.place.next, mayStartKey := s.flow == 0 }

/-- Reads a colon. A candidate becomes a key, and starts a mapping where it is further in. -/
def fetchValue (s : Scanner) : Except Fault Scanner :=
  match s.candidate? with
  | some c =>
    let s := { s with
      candidates := s.candidates.filter (·.1 != s.flow)
      tokens := s.tokens.insertIdxIfInBounds c.token .key
      mayStartKey := false }
    let s := if s.flow = 0 then s.openBlock c.column .blockMappingStart c.token else s
    .ok { s.push .value with place := s.place.next }
  | none => do
    let s ← s.openHere .blockMappingStart
    let s ← s.dropCandidate
    return { s.push .value with place := s.place.next, mayStartKey := s.flow == 0 }

def isIndicator (c : Rune) : Bool := "-?:,[]\x7b\x7d#&*!|>'\"%@\x60".runes.contains c

def startsPlain (flow : Bool) (c : Rune) (next : Option Rune) : Bool :=
  !(isWhite c || isBreak c || isIndicator c) ||
    (!endsWord next && (c == '-' || (!flow && (c == '?' || c == ':'))))

def fetch (s : Scanner) (fuel : Nat) (c : Rune) : Except Fault Scanner :=
  let next := s.place.ahead? 1
  let flow := s.flow != 0
  let first := s.place.column == 0
  let marks (t : Token) (place : Cursor) : Except Fault (Token × Cursor) := .ok (t, place.skip 3)
  if c == '%' && first then s.fetchOutside directive
  else if first && s.place.atMark '-' then s.fetchOutside (marks .documentStart)
  else if first && s.place.atMark '.' then s.fetchOutside (marks .documentEnd)
  else if c == '[' then s.fetchOpening .flowSequenceStart
  else if c == '{' then s.fetchOpening .flowMappingStart
  else if c == ']' then s.fetchClosing .flowSequenceEnd
  else if c == '}' then s.fetchClosing .flowMappingEnd
  else if c == ',' then s.fetchFlowEntry
  else if c == '-' && endsWord next then s.fetchBlockEntry
  else if c == '?' && (flow || endsWord next) then s.fetchKey
  else if c == ':' && (flow || endsWord next) then s.fetchValue
  else if c == '*' then s.fetchNode fun p => do
    let (name, p) ← anchorName p.next
    return (.alias name, p)
  else if c == '&' then s.fetchNode fun p => do
    let (name, p) ← anchorName p.next
    return (.anchor name, p)
  else if c == '!' then s.fetchNode fun p => do
    let (name, p) ← tagName p
    return (.tag name, p)
  else if (c == '|' || c == '>') && !flow then s.fetchBlockScalar
  else if c == '\x27' || c == '"' then s.fetchNode fun p => do
    let (text, p) ← quotedScalar p
    return (.scalar text false, p)
  else if startsPlain flow c next then s.fetchPlain fuel
  else malformed

/-- Reads the tokens at this place, and whether they are the last. A closing bracket that closes
nothing is the last one, since no token may follow it. -/
def step (s : Scanner) (fuel : Nat) : Except Fault (Scanner × Bool) := do
  let s ← s.dropStale
  let s := s.unwind s.place.column
  match s.place.head? with
  | none => do
    let s ← (s.unwind (-1)).dropCandidate
    return (s.push .streamEnd, true)
  | some c =>
    if (c == ']' || c == '}') && s.flow == 0 then
      let s ← s.dropCandidate
      return (s.push (.fault .malformed), true)
    else
      let s ← s.fetch fuel c
      return (← s.dropStale, false)

/-- The tokens that are settled: those before the first that may yet turn out to be a key, since
it is not known until more has been read whether the sign of a key stands before that one. -/
def settled (s : Scanner) : Array Token :=
  s.tokens.take (s.candidates.foldl (fun n c => min n c.2.token) s.tokens.size)

/-- Reads tokens to the end of the text or to a fault. A fault is met in place of the first token
that is not settled when it comes up, and is the last token then. -/
def run : (fuel : Nat) → Scanner → Array Token
  | 0, s => s.settled.push (.fault .malformed)
  | fuel + 1, s =>
    match (skipBlank (fuel + 1) s).step fuel with
    | .error f => s.settled.push (.fault f)
    | .ok (s, true) => s.tokens
    | .ok (s, false) => run fuel s

end Scanner

def isAllowed (c : Rune) : Bool :=
  let n := c.toNat
  n == 0x09 || n == 0x0A || n == 0x0D || (0x20 ≤ n && n ≤ 0x7E) || n == 0x85 ||
    (0xA0 ≤ n && n ≤ 0xD7FF) || (0xE000 ≤ n && n ≤ 0xFFFD) || 0x10000 ≤ n

def tokens (text : List Rune) : List Token :=
  if !text.all isAllowed then [.fault .malformed]
  else
    let start : Cursor := ⟨text, 0, 0, 0⟩
    let start := if start.at? '\ufeff' then start.next else start
    (Scanner.run (text.length + 2) { place := start }).toList

end ApiPrep.Yaml
