import ApiPrep.Failure

namespace ApiPrep

def Value.mostOpen : Nat := 980

def Scalar.obstacle? : Scalar → Option Breakdown
  | .int n => if Nat.pow 10 Decimal.mostDigits ≤ n.natAbs then some (.tooManyDigits none) else none
  | _ => none

def Value.opening (depth : Nat) (within : Nat → Option Breakdown) : Option Breakdown :=
  match depth with
  | 0 => some .tooDeep
  | depth + 1 => within depth

mutual

/-- What prevents a value from being spelled out at a place within marked collections, where
`depth` more may be opened. -/
def Value.obstacleWithin (around : List Nat) (depth : Nat) : Value → Option Breakdown
  | .scalar s => s.obstacle?
  | .list items => Value.opening depth fun depth => itemsObstacle around depth items
  | .map entries => Value.opening depth fun depth => entriesObstacle around depth entries
  | .set members => Value.opening depth fun _ => members.findSome? Scalar.obstacle?
  | .pair key value => Value.opening depth fun depth =>
    (key.obstacleWithin around depth).or (value.obstacleWithin around depth)
  | .marked mark v =>
    if around.contains mark then none else v.obstacleWithin (mark :: around) depth
  | .again _ => none

def itemsObstacle (around : List Nat) (depth : Nat) : List Value → Option Breakdown
  | [] => none
  | item :: rest => (item.obstacleWithin around depth).or (itemsObstacle around depth rest)

def entriesObstacle (around : List Nat) (depth : Nat) :
    List (Scalar × Value) → Option Breakdown
  | [] => none
  | (key, value) :: rest =>
    (key.obstacle?.or (value.obstacleWithin around depth)).or (entriesObstacle around depth rest)

end

/-- What prevents a value from being spelled out: too long a number or too many collections
within one another. -/
def Value.obstacle? (value : Value) : Option Breakdown := value.obstacleWithin [] mostOpen

namespace Attempt

def spellable (value : Value) : Attempt Unit :=
  match value.obstacle? with
  | some b => broken b
  | none => return ()

def spelled (value : Value) : Attempt Text := do
  spellable value
  return value.plain

end Attempt

end ApiPrep
