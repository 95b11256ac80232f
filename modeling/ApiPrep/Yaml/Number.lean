import ApiPrep.Decimal.Digits
import ApiPrep.Decimal.Nearest
import ApiPrep.Failure
import ApiPrep.Text.Blank
import ApiPrep.Text.Digit

namespace ApiPrep.Yaml

def signed : List Rune → Bool × List Rune
  | '-' :: rest => (true, rest)
  | '+' :: rest => (false, rest)
  | s => (false, s)

def digitOf (c : Rune) : Option Nat := (Text.digitValue? c).or (Decimal.hexDigit? c)

def dropBaseMark (base : Nat) : List Rune → List Rune
  | '0' :: mark :: rest =>
    let marks : List Rune := if base = 2 then ['b', 'B'] else if base = 8 then ['o', 'O']
      else if base = 16 then ['x', 'X'] else []
    if marks.contains mark then rest else '0' :: mark :: rest
  | s => s

def integerOfText (base : Nat) (text : List Rune) : Except Breakdown Int :=
  let bad := Breakdown.badInteger (Text.ofList text) base
  let (negative, body) := signed (Text.trim text)
  match (dropBaseMark base body).mapM digitOf with
  | none => .error bad
  | some digits =>
    if digits.isEmpty || digits.any (base ≤ ·) then .error bad
    else if base = 10 ∧ Decimal.mostDigits < digits.length then
      .error (.tooManyDigits (some digits.length))
    else
      let n : Int := Decimal.ofDigits base digits
      .ok (if negative then -n else n)

def digitRun (s : List Rune) : List Nat × List Rune :=
  ((s.takeWhile Text.isDigit).filterMap Text.digitValue?, s.dropWhile Text.isDigit)

def powerOfText? : List Rune → Option Int
  | [] => some 0
  | c :: rest =>
    if c = 'e' ∨ c = 'E' then
      let (negative, body) := signed rest
      match digitRun body with
      | ([], _) => none
      | (digits, []) =>
        let n : Int := Decimal.ofDigits 10 digits
        some (if negative then -n else n)
      | _ => none
    else none

def floatOfText (text : List Rune) : Except Breakdown Float :=
  let bad := Breakdown.badFloat (Text.ofList text)
  let (negative, body) := signed (Text.trim text)
  let word := Text.ofList (body.map Rune.toLower)
  if word = "inf" ∨ word = "infinity" then
    .ok (Float.ofBits (if negative then 0xFFF0000000000000 else 0x7FF0000000000000))
  else if word = "nan" then .ok (Float.ofBits 0x7FF8000000000000)
  else
    let (digits, rest) := digitRun body
    let (places, rest) := match rest with
      | '.' :: rest => digitRun rest
      | rest => ([], rest)
    match powerOfText? rest with
    | none => .error bad
    | some power =>
      if digits.isEmpty ∧ places.isEmpty then .error bad
      else
        let m := Decimal.ofDigits 10 (digits ++ places)
        .ok (Decimal.toFloat negative m (power - places.length))

end ApiPrep.Yaml
