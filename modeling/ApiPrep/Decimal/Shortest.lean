import ApiPrep.Decimal.Nearest

namespace ApiPrep.Decimal

/-- A double taken apart: `m · 2 ^ q` with its sign, or one of the values that are no number. -/
inductive Parts where
  | finite (negative : Bool) (m : Nat) (q : Int)
  | infinite (negative : Bool)
  | undefined

def parts (x : Float) : Parts :=
  let bits := x.toBits.toNat
  let negative := decide (signBit ≤ bits)
  let exponent : Nat := bits / leastNormal % 2048
  let fraction : Nat := bits % leastNormal
  if exponent = 2047 then (if fraction = 0 then .infinite negative else .undefined)
  else if exponent = 0 then .finite negative fraction (-1074)
  else .finite negative (fraction + leastNormal) ((exponent : Int) - 1075)

/-- The decimal exponent `e` with `10 ^ e ≤ num / den < 10 ^ (e + 1)`. -/
def magnitude (num den : Nat) : Int :=
  if den ≤ num then (digitCount (num / den) : Int) - 1
  else -(digitCount ((den - 1) / num) : Int)

/-- The interval of reals that round to `m · 2 ^ q`, all in units of `2 ^ (q - 2)`. -/
structure Interval where
  low : Nat
  value : Nat
  high : Nat
  closed : Bool

def interval (m : Nat) (q : Int) : Interval :=
  { low := if m = leastNormal ∧ -1074 < q then 4 * m - 1 else 4 * m - 2
    value := 4 * m
    high := 4 * m + 2
    closed := m % 2 == 0 }

/-- The point of the decimal grid `10 ^ e · ℕ` that lies in the interval next to its value,
where `num / den` is the worth of the interval's unit in units of the grid. -/
def onGrid (i : Interval) (num den : Nat) : Option Nat :=
  let below := i.value * num / den
  let inside (g : Nat) : Bool :=
    if i.closed then i.low * num ≤ g * den && g * den ≤ i.high * num
    else i.low * num < g * den && g * den < i.high * num
  let gapBelow := i.value * num - below * den
  let gapAbove := (below + 1) * den - i.value * num
  match inside below, inside (below + 1) with
  | true, true =>
    if gapBelow < gapAbove then some below
    else if gapAbove < gapBelow then some (below + 1)
    else some (below + below % 2)
  | true, false => some below
  | false, true => some (below + 1)
  | false, false => none

/-- The first grid of 1, 2, … digits that has a point in the interval, with that point. -/
def shortestFrom (i : Interval) (unit : Int) (top : Int) :
    (tries : Nat) → (digits : Nat) → Nat × Int
  | 0, _ => (0, 0)
  | tries + 1, digits =>
    let grid := top - digits + 1
    let num := Nat.pow 2 unit.toNat * Nat.pow 10 (-grid).toNat
    let den := Nat.pow 2 (-unit).toNat * Nat.pow 10 grid.toNat
    match onGrid i num den with
    | some point => (point, grid)
    | none => shortestFrom i unit top tries (digits + 1)

def dropZeros : (tries : Nat) → Nat → Nat × Nat
  | 0, n => (n, 0)
  | tries + 1, n =>
    if n ≠ 0 ∧ n % 10 = 0 then
      let (m, zeros) := dropZeros tries (n / 10)
      (m, zeros + 1)
    else (n, 0)

/-- The fewest decimal digits `d` and the exponent `e` such that `d · 10 ^ e` reads back as
`m · 2 ^ q`, the nearest of those of that length. -/
def shortest (m : Nat) (q : Int) : Nat × Int :=
  if m = 0 then (0, 0)
  else
    let i := interval m q
    let unit := q - 2
    let top := magnitude (i.value * Nat.pow 2 unit.toNat) (Nat.pow 2 (-unit).toNat)
    let (point, grid) := shortestFrom i unit top 17 1
    let (d, zeros) := dropZeros 20 point
    (d, grid + zeros)

end ApiPrep.Decimal
