import ApiPrep.Parameter

namespace ApiPrep.Parameter

/-- The texts and the flag by which parameters are ordered; absent texts count as empty. -/
def sortKey (p : Parameter) : Text × Text × Text × Bool :=
  (p.baseName.getD "", p.dataType.getD "", p.dataFormat.getD "", p.required)

def keyLe (a b : Text × Text × Text × Bool) : Bool :=
  if a.1 ≠ b.1 then a.1 < b.1
  else if a.2.1 ≠ b.2.1 then a.2.1 < b.2.1
  else if a.2.2.1 ≠ b.2.2.1 then a.2.2.1 < b.2.2.1
  else !a.2.2.2 || b.2.2.2

/-- The parameters that have an identity, in the order of comparison; those of equal keys stay
in theirs. -/
def comparable (ps : List (Option Parameter)) : List Parameter :=
  ((ps.filterMap id).filter (·.baseName.isSome)).mergeSort fun p q => keyLe p.sortKey q.sortKey

def agrees (p q : Parameter) : Bool :=
  p.baseName == q.baseName && p.dataType == q.dataType && p.required == q.required &&
    p.dataFormat == q.dataFormat

def agreeAll : List Parameter → List Parameter → Bool
  | [], [] => true
  | p :: ps, q :: qs => agrees p q && agreeAll ps qs
  | _, _ => false

/-- Whether two lists describe the same parameters, in whatever order. -/
def sameSet (left right : List (Option Parameter)) : Bool :=
  agreeAll (comparable left) (comparable right)

end ApiPrep.Parameter
