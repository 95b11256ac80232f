import ApiPrep.Value
import ApiPrep.Decimal.Digits
import ApiPrep.Decimal.Nearest

namespace ApiPrep.Json

inductive Reason where
  | value
  | key
  | colon
  | comma
  | surplus
  | openText
  | badEscape
  | badCodePoint
  | control
  | byteOrderMark
deriving DecidableEq, Repr

def Reason.text : Reason → Text
  | .value => "Expecting value"
  | .key => "Expecting property name enclosed in double quotes"
  | .colon => "Expecting ':' delimiter"
  | .comma => "Expecting ',' delimiter"
  | .surplus => "Extra data"
  | .openText => "Unterminated string starting at"
  | .badEscape => "Invalid \\escape"
  | .badCodePoint => "Invalid \\uXXXX escape"
  | .control => "Invalid control character at"
  | .byteOrderMark => "Unexpected UTF-8 BOM (decode using utf-8-sig)"

/-- Why reading stops; a place is given by how many characters are left there. -/
inductive Stop where
  | because (reason : Reason) (left : Nat)
  | tooDeep
  | tooManyDigits (count : Nat)
deriving DecidableEq, Repr

inductive Fault where
  | malformed (reason : Reason) (line column offset : Nat)
  | tooDeep
  | tooManyDigits (count : Nat)
deriving DecidableEq, Repr

def Fault.message : Fault → Text
  | .malformed reason line column offset =>
    reason.text ++ s!": line {line} column {column} (char {offset})"
  | .tooDeep => "maximum recursion depth exceeded"
  | .tooManyDigits count => Decimal.tooManyDigits (some count)

def stop {α : Type} (reason : Reason) (rest : List Rune) : Except Stop α :=
  .error (.because reason rest.length)

def isBlank (c : Rune) : Bool := c == ' ' || c == '\t' || c == '\n' || c == '\r'

def skip (s : List Rune) : List Rune := s.dropWhile isBlank

def codeUnit? : List Rune → Option (Nat × List Rune)
  | a :: b :: c :: d :: rest => do
    let digits ← [a, b, c, d].mapM Decimal.hexDigit?
    return (Decimal.ofDigits 16 digits, rest)
  | _ => none

/-- The rune of a code unit, together with the second half of a pair if one follows; `s` follows
the first code unit. Half a pair that lacks the other stands for itself. -/
def pairUp (unit : Nat) (s : List Rune) : Except Stop (Rune × List Rune) :=
  let alone := (Rune.ofNat unit, s)
  if 0xD800 ≤ unit ∧ unit ≤ 0xDBFF then
    match s with
    | '\\' :: 'u' :: rest =>
      if rest.length ≤ 4 then .ok alone
      else match codeUnit? rest with
        | none => stop .badCodePoint ('u' :: rest)
        | some (low, after) =>
          if 0xDC00 ≤ low ∧ low ≤ 0xDFFF then
            .ok (Rune.ofNat (0x10000 + (unit - 0xD800) * 0x400 + (low - 0xDC00)), after)
          else .ok alone
    | _ => .ok alone
  else .ok alone

def escapes : List (Rune × Rune) :=
  [('"', '"'), ('\\', '\\'), ('/', '/'), ('b', '\x08'), ('f', '\x0c'), ('n', '\n'), ('r', '\r'),
    ('t', '\t')]

def escaped (start : Nat) : List Rune → Except Stop (Rune × List Rune)
  | [] => .error (.because .openText start)
  | 'u' :: rest =>
    if rest.length ≤ 4 then stop .badCodePoint ('u' :: rest)
    else match codeUnit? rest with
      | none => stop .badCodePoint ('u' :: rest)
      | some (unit, after) => pairUp unit after
  | c :: rest =>
    match escapes.lookup c with
    | some stands => .ok (stands, rest)
    | none => stop .badEscape ('\\' :: c :: rest)

def textBody (start : Nat) : (fuel : Nat) → List Rune → Except Stop (List Rune × List Rune)
  | 0, _ => .error (.because .openText start)
  | _ + 1, [] => .error (.because .openText start)
  | _ + 1, '"' :: rest => .ok ([], rest)
  | fuel + 1, '\\' :: rest => do
    let (c, rest) ← escaped start rest
    let (s, rest) ← textBody start fuel rest
    return (c :: s, rest)
  | fuel + 1, c :: rest =>
    if c.toNat < 0x20 then stop .control (c :: rest)
    else do
      let (s, rest) ← textBody start fuel rest
      return (c :: s, rest)

def quotedText (rest : List Rune) : Except Stop (Text × List Rune) := do
  let (s, rest) ← textBody (rest.length + 1) (rest.length + 1) rest
  return (Text.ofList s, rest)

/-- The digits of a fraction with what follows them; without a digit there is no fraction. -/
def fraction : List Rune → List Rune × List Rune
  | '.' :: rest =>
    match rest.span Rune.isDigit with
    | ([], _) => ([], '.' :: rest)
    | (digits, after) => (digits, after)
  | s => ([], s)

def exponent? : List Rune → Option (Int × List Rune)
  | c :: rest =>
    if c = 'e' ∨ c = 'E' then
      let (negative, rest) := match rest with
        | '-' :: after => (true, after)
        | '+' :: after => (false, after)
        | after => (false, after)
      match rest.span Rune.isDigit with
      | ([], _) => none
      | (digits, after) =>
        let size := Decimal.ofText 10 digits
        some (if negative then -size else size, after)
    else none
  | [] => none

/-- The whole part of a number: a zero alone or digits that start with none. -/
def whole : List Rune → List Rune × List Rune
  | '0' :: rest => (['0'], rest)
  | s => s.span Rune.isDigit

def number (place : List Rune) (negative : Bool) (s : List Rune) :
    Except Stop (Value × List Rune) :=
  match whole s with
  | ([], _) => stop .value place
  | (digits, rest) =>
    let (places, afterPlaces) := fraction rest
    match places, exponent? afterPlaces with
    | [], none =>
      if Decimal.mostDigits < digits.length then .error (.tooManyDigits digits.length)
      else
        let n : Int := Decimal.ofText 10 digits
        .ok (.int (if negative then -n else n), rest)
    | places, power =>
      let (exponent, rest) := power.getD (0, afterPlaces)
      let m := Decimal.ofText 10 (digits ++ places)
      .ok (.float (Decimal.toFloat negative m (exponent - places.length)), rest)

def plainValue (s : List Rune) : Except Stop (Value × List Rune) :=
  match s with
  | 'n' :: 'u' :: 'l' :: 'l' :: rest => .ok (.null, rest)
  | 't' :: 'r' :: 'u' :: 'e' :: rest => .ok (.bool true, rest)
  | 'f' :: 'a' :: 'l' :: 's' :: 'e' :: rest => .ok (.bool false, rest)
  | 'N' :: 'a' :: 'N' :: rest => .ok (.float (Float.ofBits 0x7FF8000000000000), rest)
  | 'I' :: 'n' :: 'f' :: 'i' :: 'n' :: 'i' :: 't' :: 'y' :: rest =>
    .ok (.float (Float.ofBits 0x7FF0000000000000), rest)
  | '-' :: 'I' :: 'n' :: 'f' :: 'i' :: 'n' :: 'i' :: 't' :: 'y' :: rest =>
    .ok (.float (Float.ofBits 0xFFF0000000000000), rest)
  | '-' :: rest => number s true rest
  | _ => number s false s

mutual

/-- A value at the start of the text; at most `depth` brackets may be open within it. -/
def value : (fuel depth : Nat) → List Rune → Except Stop (Value × List Rune)
  | 0, _, s => stop .value s
  | _ + 1, _, '"' :: rest => do
    let (s, rest) ← quotedText rest
    return (.text s, rest)
  | _ + 1, 0, '[' :: _ => .error .tooDeep
  | _ + 1, 0, '{' :: _ => .error .tooDeep
  | fuel + 1, depth + 1, '[' :: rest =>
    match skip rest with
    | ']' :: rest => .ok (.list [], rest)
    | rest => do
      let (items, rest) ← items fuel depth rest
      return (.list items, rest)
  | fuel + 1, depth + 1, '{' :: rest =>
    match skip rest with
    | '}' :: rest => .ok (.map [], rest)
    | rest => do
      let (pairs, rest) ← members fuel depth rest
      return (.map (Entries.ofList pairs), rest)
  | _ + 1, _, s => plainValue s

def items : (fuel depth : Nat) → List Rune → Except Stop (List Value × List Rune)
  | 0, _, s => stop .value s
  | fuel + 1, depth, s => do
    let (item, rest) ← value fuel depth s
    match skip rest with
    | ']' :: rest => return ([item], rest)
    | ',' :: rest =>
      let (others, rest) ← items fuel depth (skip rest)
      return (item :: others, rest)
    | rest => stop .comma rest

def members : (fuel depth : Nat) → List Rune → Except Stop (List (Scalar × Value) × List Rune)
  | 0, _, s => stop .key s
  | fuel + 1, depth, '"' :: rest => do
    let (key, rest) ← quotedText rest
    match skip rest with
    | ':' :: rest =>
      let (held, rest) ← value fuel depth (skip rest)
      match skip rest with
      | '}' :: rest => return ([(.text key, held)], rest)
      | ',' :: rest =>
        let (others, rest) ← members fuel depth (skip rest)
        return ((.text key, held) :: others, rest)
      | rest => stop .comma rest
    | rest => stop .colon rest
  | _ + 1, _, s => stop .key s

end

def mostOpen : Nat := 980

def whole? (s : List Rune) : Except Stop Value := do
  if s.head? = some (.char '\ufeff') then stop .byteOrderMark s
  else
    let (v, rest) ← value (2 * s.length + 2) mostOpen (skip s)
    match skip rest with
    | [] => return v
    | rest => stop .surplus rest

def faultAt (s : List Rune) (reason : Reason) (left : Nat) : Fault :=
  let before := s.take (s.length - left)
  let column := (before.reverse.takeWhile (· ≠ .char '\n')).length + 1
  .malformed reason (before.count (.char '\n') + 1) column before.length

def read (text : Text) : Except Fault Value :=
  match whole? text.toList with
  | .ok v => .ok v
  | .error (.because reason left) => .error (faultAt text.toList reason left)
  | .error .tooDeep => .error .tooDeep
  | .error (.tooManyDigits count) => .error (.tooManyDigits count)

end ApiPrep.Json
