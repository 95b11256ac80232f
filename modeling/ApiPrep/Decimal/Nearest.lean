namespace ApiPrep.Decimal

def digitCount (n : Nat) : Nat := (Nat.toDigits 10 n).length

/-- A quotient rounded to the nearest whole number, a half going to the even neighbour. -/
def roundDiv (num den : Nat) : Nat :=
  let quotient := num / den
  let twice := 2 * (num % den)
  if twice < den then quotient
  else if den < twice then quotient + 1
  else quotient + quotient % 2

/-- The mantissas of normal doubles run from this one to twice as much. -/
def leastNormal : Nat := 0x10000000000000

def signBit : Nat := 0x8000000000000000

/-- The bits of the double nearest to `num / den`, a half going to the even neighbour. -/
def nearestBits (num den : Nat) : Nat :=
  if num = 0 then 0
  else
    let scale : Int := max ((num.log2 : Int) - den.log2 - 53) (-1074)
    let raw (q : Int) := roundDiv (num * Nat.pow 2 (-q).toNat) (den * Nat.pow 2 q.toNat)
    -- The first scale may be one or two too fine; a coarser one then holds the value.
    let scale := if 4 * leastNormal ≤ raw scale then scale + 2
      else if 2 * leastNormal ≤ raw scale then scale + 1 else scale
    let mantissa := raw scale
    let (mantissa, scale) :=
      if mantissa = 2 * leastNormal then (leastNormal, scale + 1) else (mantissa, scale)
    if mantissa < leastNormal then mantissa
    else if 971 < scale then 0x7FF0000000000000
    else (scale + 1075).toNat * leastNormal + (mantissa - leastNormal)

def toFloat (negative : Bool) (m : Nat) (e : Int) : Float :=
  let size := e + digitCount m
  let bits :=
    if m = 0 ∨ size < -400 then 0
    else if 400 < size then 0x7FF0000000000000
    else nearestBits (m * Nat.pow 10 e.toNat) (Nat.pow 10 (-e).toNat)
  Float.ofBits (if negative then bits + signBit else bits).toUInt64

end ApiPrep.Decimal
