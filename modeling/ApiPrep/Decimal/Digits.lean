import ApiPrep.Text

namespace ApiPrep.Decimal

def ofDigits (base : Nat) (digits : List Nat) : Nat :=
  digits.foldl (fun n d => n * base + d) 0

def hexDigit? (c : Rune) : Option Nat :=
  if c.isDigit then some (c.toNat - '0'.toNat)
  else if 'a' ≤ c ∧ c ≤ 'f' then some (c.toNat - 'a'.toNat + 10)
  else if 'A' ≤ c ∧ c ≤ 'F' then some (c.toNat - 'A'.toNat + 10)
  else none

/-- A text of ASCII digits as a number of the given base; other characters do not count. -/
def ofText (base : Nat) (s : List Rune) : Nat := ofDigits base (s.filterMap hexDigit?)

/-- Texts of more digits than this are refused as whole numbers. -/
def mostDigits : Nat := 4300

def tooManyDigits (count : Option Nat) : String :=
  s!"Exceeds the limit ({mostDigits} digits) for integer string conversion" ++
    (count.map fun n => s!": value has {n} digits").getD "" ++
    "; use sys.set_int_max_str_digits() to increase the limit"

end ApiPrep.Decimal
