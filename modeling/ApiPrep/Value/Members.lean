import ApiPrep.Value

namespace ApiPrep.Members

def code? (s : Scalar) : Option Int :=
  s.integer?.map fun n =>
    let size : Nat := n.natAbs % 0x1FFFFFFFFFFFFFFF
    let code : Int := if n < 0 then -(size : Int) else size
    if code = -1 then -2 else code

/-- How many places there are for a number of members: eight, or the power of two that is more
than twice as much. -/
def places (count : Nat) : Nat :=
  if count < 5 then 8 else Nat.pow 2 (Nat.log2 (2 * count) + 1)

/-- Where a member goes that finds the places `taken`: to its own, to one of the nine that
follow if they are there, or further on. -/
def slot (size : Nat) (taken : List Nat) : (tries rest : Nat) → (place : Nat) → Nat
  | 0, _, place => place
  | tries + 1, rest, place =>
    let near := if place + 9 < size then 10 else 1
    match ((List.range near).map (place + ·)).find? fun p => !taken.contains p with
    | some free => free
    | none =>
      let rest := rest / 32
      slot size taken tries rest ((place * 5 + 1 + rest) % size)

def placed (size : Nat) : List (Nat × Scalar) → List (Int × Scalar) → List (Nat × Scalar)
  | done, [] => done
  | done, (code, s) :: rest =>
    let wide := (code % 0x10000000000000000).toNat
    let place := slot size (done.map (·.1)) (size + 20) wide (wide % size)
    placed size (done ++ [(place, s)]) rest

/-- The order in which a set has its members: numbers by their places, others as they came. -/
def inOrder (members : List Scalar) : List Scalar :=
  match members.mapM fun s => (code? s).map (·, s) with
  | none => members
  | some coded =>
    let done := placed (places members.length) [] coded
    (done.mergeSort fun a b => a.1 ≤ b.1).map (·.2)

end ApiPrep.Members
