import ApiPrep.Decimal.Shortest

namespace ApiPrep.Decimal

structure Layout where
  /-- Positional notation serves while the point stands after this many places … -/
  leastPoint : Int
  /-- … and no more than this many. -/
  greatestPoint : Int
  /-- The exponent has at least this many digits. -/
  exponentDigits : Nat
  infinity : String
  undefined : String

/-- Digits with a point after `point` of them, which may lie outside the digits. -/
def positional (digits : List Char) (point : Int) : List Char :=
  if point ≤ 0 then '0' :: '.' :: (List.replicate (-point).toNat '0' ++ digits)
  else if (digits.length : Int) ≤ point then
    digits ++ List.replicate (point.toNat - digits.length) '0' ++ ['.', '0']
  else digits.take point.toNat ++ '.' :: digits.drop point.toNat

def scientific (width : Nat) (digits : List Char) (point : Int) : List Char :=
  let exponent := point - 1
  let size := Nat.toDigits 10 exponent.natAbs
  let mantissa := match digits with
    | [] => ['0']
    | [d] => [d]
    | d :: rest => d :: '.' :: rest
  mantissa ++ ['e', if exponent < 0 then '-' else '+'] ++
    List.replicate (width - size.length) '0' ++ size

def Layout.write (layout : Layout) (x : Float) : String :=
  match parts x with
  | .undefined => layout.undefined
  | .infinite negative => (if negative then "-" else "") ++ layout.infinity
  | .finite negative m q =>
    let (d, e) := shortest m q
    let digits := Nat.toDigits 10 d
    let point := e + digits.length
    let text :=
      if layout.leastPoint < point ∧ point ≤ layout.greatestPoint then positional digits point
      else scientific layout.exponentDigits digits point
    String.ofList (if negative then '-' :: text else text)

end ApiPrep.Decimal
