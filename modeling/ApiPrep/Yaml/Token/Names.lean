import ApiPrep.Decimal.Digits
import ApiPrep.Yaml.Token

namespace ApiPrep.Yaml

def malformed {α : Type} : Except Fault α := .error .malformed

def ignoredLine (s : Cursor) : Except Fault Cursor :=
  let s := s.skipWhile (· == ' ')
  let s := if s.at? '#' then s.skipWhile (!isBreak ·) else s
  if endsLine s.head? then .ok ((s.break?.map (·.2)).getD s) else malformed

def anchorName (s : Cursor) : Except Fault (List Rune × Cursor) :=
  let (name, s) := s.takeWhile isWordChar
  let ended := endsWord s.head? || (s.head?.map "?:,]\x7d%@\x60".runes.contains).getD true
  if name.isEmpty || !ended then malformed else .ok (name, s)

def isTagChar (c : Rune) : Bool :=
  c.isAlphanum || "-;/?:@&=+$,_.!~*'()[]".runes.contains c

/-- The bytes written as percent signs with two digits each; the first `fuel` of them. -/
def escapedBytes : (fuel : Nat) → Cursor → Except Fault (List UInt8 × Cursor)
  | 0, s => .ok ([], s)
  | fuel + 1, s =>
    if s.at? '%' then
      match (s.ahead? 1).bind Decimal.hexDigit?, (s.ahead? 2).bind Decimal.hexDigit? with
      | some high, some low => do
        let (bytes, s) ← escapedBytes fuel (s.skip 3)
        return ((16 * high + low).toUInt8 :: bytes, s)
      | _, _ => malformed
    else .ok ([], s)

def tagChars : (fuel : Nat) → Cursor → Except Fault (List Rune × Cursor)
  | 0, s => .ok ([], s)
  | fuel + 1, s => do
    let (plain, s) := s.takeWhile isTagChar
    if s.at? '%' then
      let (bytes, s) ← escapedBytes s.rest.length s
      match Text.Utf8.decode bytes with
      | .error _ => malformed
      | .ok decoded =>
        let (others, s) ← tagChars fuel s
        return (plain ++ decoded.map Rune.char ++ others, s)
    else return (plain, s)

def tagText (s : Cursor) : Except Fault (List Rune × Cursor) := do
  let (text, after) ← tagChars (s.rest.length + 1) s
  if text.isEmpty then malformed else return (text, after)

def tagHandle (s : Cursor) : Except Fault (List Rune × Cursor) :=
  if !s.at? '!' then malformed
  else if (s.ahead? 1) == some (.char ' ') then .ok ([.char '!'], s.next)
  else
    let (name, after) := s.next.takeWhile isWordChar
    if after.at? '!' then .ok ('!' :: (name ++ [.char '!']), after.next) else malformed

def verbatimTag (s : Cursor) : Except Fault (TagName × Cursor) := do
  let (text, s) ← tagText (s.skip 2)
  if s.at? '>' then return (⟨none, text⟩, s.next) else malformed

/-- Whether a second exclamation mark stands in the word after the first. -/
def hasHandle (s : Cursor) : Bool :=
  (s.rest.drop 1).find? (fun (c : Rune) => c == '!' || c == ' ' || isBreak c) == some (.char '!')

def handledTag (s : Cursor) : Except Fault (TagName × Cursor) := do
  let (handle, s) ← if hasHandle s then tagHandle s else .ok (['!'], s.next)
  let (text, s) ← tagText s
  return (⟨some handle, text⟩, s)

def tagName (s : Cursor) : Except Fault (TagName × Cursor) := do
  let (name, s) ←
    if s.ahead? 1 == some (.char '<') then verbatimTag s
    else if endsWord (s.ahead? 1) then .ok (⟨none, ['!']⟩, s.next)
    else handledTag s
  if endsEntry s.head? then return (name, s) else malformed

def directiveNumber (s : Cursor) : Except Fault (Nat × Cursor) :=
  match s.takeWhile Rune.isDigit with
  | ([], _) => malformed
  | (digits, s) =>
    if Decimal.mostDigits < digits.length then
      .error (.broken (.tooManyDigits (some digits.length)))
    else .ok (Decimal.ofText 10 digits, s)

def versionDirective (s : Cursor) : Except Fault (Token × Cursor) := do
  let (major, s) ← directiveNumber (s.skipWhile (· == ' '))
  if !s.at? '.' then malformed
  else
    let (_, s) ← directiveNumber s.next
    if endsEntry s.head? then return (.version major, s) else malformed

def tagDirective (s : Cursor) : Except Fault (Token × Cursor) := do
  let (handle, s) ← tagHandle (s.skipWhile (· == ' '))
  if !s.at? ' ' then malformed
  else
    let (start, s) ← tagText (s.skipWhile (· == ' '))
    if endsEntry s.head? then return (.tagHandle handle start, s) else malformed

def directive (s : Cursor) : Except Fault (Token × Cursor) := do
  let (name, s) := s.next.takeWhile isWordChar
  if name.isEmpty || !endsEntry s.head? then malformed
  else
    let (token, s) ←
      if name == "YAML".runes then versionDirective s
      else if name == "TAG".runes then tagDirective s
      else .ok (.otherDirective, s.skipWhile (!isBreak ·))
    let s ← ignoredLine s
    return (token, s)

end ApiPrep.Yaml
