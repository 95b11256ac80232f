import ApiPrep.Text

namespace ApiPrep.Text

/-- A run of code points `first, first + step, …, last` that a case map moves by one distance. -/
structure CaseRun where
  first : Nat
  last : Nat
  step : Nat
  shift : Int

def CaseRun.has (r : CaseRun) (n : Nat) : Bool :=
  decide (r.first ≤ n) && decide (n ≤ r.last) && (n - r.first) % r.step == 0

/-- The letter that the first run holding `c` moves it to, and `c` itself if none does. -/
def shiftBy : List CaseRun → Rune → Rune
  | [], c => c
  | r :: rest, c => if r.has c.toNat then Rune.ofNat (c.toNat + r.shift).toNat else shiftBy rest c

end ApiPrep.Text
