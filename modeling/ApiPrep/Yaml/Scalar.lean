import ApiPrep.Text.Base64
import ApiPrep.Text.Case.Lower
import ApiPrep.Value
import ApiPrep.Yaml.Cursor
import ApiPrep.Yaml.Number
import ApiPrep.Yaml.Tag

namespace ApiPrep.Yaml

def breaking {α : Type} : Except Breakdown α → Except Fault α
  | .ok a => .ok a
  | .error b => .error (.broken b)

/-- The number that pieces make in sixtieths, the last piece counting once. -/
def sixtieths (pieces : List Int) : Int := pieces.foldl (fun sum n => sum * 60 + n) 0

def intOfText (text : List Rune) : Except Fault Int := do
  let text := text.filter (· != .char '_')
  let (negative, body) := signed text
  if body.isEmpty then .error (.broken .noDigits)
  else
    let n ← breaking <|
      match body with
      | ['0'] => .ok 0
      | '0' :: 'b' :: rest => integerOfText 2 rest
      | '0' :: 'x' :: rest => integerOfText 16 rest
      | '0' :: _ => integerOfText 8 body
      | _ =>
        if body.contains ':' then
          ((Text.splitBy (· == .char ':') body).mapM (integerOfText 10)).map sixtieths
        else integerOfText 10 body
    return if negative then -n else n

def sixtiethFloats : (base : Nat) → Float → List Float → Except Fault Float
  | _, sum, [] => .ok sum
  | base, sum, x :: rest =>
    let unit := Decimal.toFloat false base 0
    if unit.isInf then .error (.broken .overflow)
    else sixtiethFloats (base * 60) (sum + x * unit) rest

def floatOfPlain (text : List Rune) : Except Fault Float := do
  let text := Text.lower (text.filter (· != '_'))
  if text.isEmpty then .error (.broken .noDigits)
  else
    let (negative, body) := signed text
    let factor : Float := if negative then -1 else 1
    if body == ".inf".runes then
      return Float.ofBits (if negative then 0xFFF0000000000000 else 0x7FF0000000000000)
    else if body == ".nan".runes then return Float.ofBits 0x7FF8000000000000
    else if body.contains ':' then
      let pieces ← breaking ((Text.splitBy (· == .char ':') body).mapM floatOfText)
      let sum ← sixtiethFloats 1 0 pieces.reverse
      return factor * sum
    else
      let x ← breaking (floatOfText body)
      return factor * x

def number (digits : List Rune) : Nat := Decimal.ofText 10 digits

/-- Digits after a point as millionths; those after the sixth are cut off. -/
def millionths (digits : List Rune) : Nat :=
  let six := digits.take 6
  number six * Nat.pow 10 (6 - six.length)

def zoneOffset : Bool × List Rune × List Rune → Int
  | (west, hours, minutes) =>
    let size : Int := number hours * 60 + number minutes
    if west then -size else size

def Timestamp.toScalar (t : Timestamp) : Except CalendarFault Scalar :=
  match t.time with
  | none => (Date.make? (number t.year) (number t.month) (number t.day)).map .date
  | some (hour, minute, second) =>
    (Moment.make? (number t.year) (number t.month) (number t.day) (number hour) (number minute)
      (number second) (millionths t.fraction) (t.zone.map zoneOffset)).map .moment

def timestampOfText (text : List Rune) : Except Fault Scalar :=
  match Timestamp.ofText? (withoutBreak text) with
  | none => .error (.broken .noTimestamp)
  | some t =>
    match t.toScalar with
    | .ok s => .ok s
    | .error f => .error (.broken (.badMoment f))

def scalarOfText (tag : Tag) (text : List Rune) : Except Fault Scalar :=
  match tag with
  | .null => .ok .null
  | .bool =>
    match Tag.truthWords.find? (·.1.runes == Text.lower text) with
    | some (_, b) => .ok (.bool b)
    | none => .error (.broken .noTruthWord)
  | .int => (intOfText text).map .int
  | .float => (floatOfPlain text).map .float
  | .timestamp => timestampOfText text
  | .str => .ok (.text (Text.ofList text))
  | .binary =>
    match Text.Base64.decode text with
    | some content => if text.all (·.toNat < 0x80) then .ok (.bytes content) else .error .malformed
    | none => .error .malformed
  | _ => .error .malformed

end ApiPrep.Yaml
