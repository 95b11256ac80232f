import ApiPrep.Value

namespace ApiPrep.Yaml

inductive Part where
  | scalar (s : Scalar)
  | list (items : List Nat)
  | map (entries : List (Scalar × Nat))
  | set (members : List Scalar)
  | ordered (pairs : List (Nat × Nat))

abbrev Parts := Array (Option Part)

namespace Part

def children : Part → List Nat
  | .scalar _ | .set _ => []
  | .list items => items
  | .map entries => entries.map (·.2)
  | .ordered pairs => pairs.flatMap fun pair => [pair.1, pair.2]

def isScalar : Part → Bool
  | .scalar _ => true
  | _ => false

/-- The value of a part whose parts have values; `mark` marks the pairs of an ordered list. -/
def value? (mark : Nat → Value → Value) (values : Nat → Option Value) : Part → Option Value
  | .scalar s => some (.scalar s)
  | .list items => (items.mapM values).map .list
  | .map entries =>
    (entries.mapM fun entry => (values entry.2).map (entry.1, ·)).map .map
  | .set members => some (.set members)
  | .ordered pairs =>
    (pairs.zipIdx.mapM fun ((key, value), index) => do
      return mark index (.pair (← values key) (← values value))).map .list

end Part

namespace Parts

def get? (parts : Parts) (id : Nat) : Option Part := (parts[id]?).join

/-- In how many places each part stands; the outermost part stands in one more. -/
def places (parts : Parts) (root : Nat) : Array Nat :=
  let counts := (Array.replicate parts.size 0).modify root (· + 1)
  parts.foldl (fun counts part =>
    ((part.map Part.children).getD []).foldl (fun counts id => counts.modify id (· + 1)) counts)
    counts

def reach (parts : Parts) : (fuel : Nat) → List Nat → Array Bool → Array Bool
  | 0, _, reached => reached
  | _, [], reached => reached
  | fuel + 1, id :: rest, reached =>
    if reached.getD id true then reach parts fuel rest reached
    else
      let next := ((parts.get? id).map Part.children).getD []
      reach parts fuel (next ++ rest) (reached.setIfInBounds id true)

def shared (parts : Parts) (root : Nat) : Array Bool :=
  let counts := parts.places root
  let several := (List.range parts.size).filter fun id =>
    2 ≤ counts.getD id 0 && ((parts.get? id).map (!·.isScalar)).getD false
  let steps := counts.foldl (· + ·) parts.size
  parts.reach (steps + 1) several (Array.replicate parts.size false)

def known (values : Array (Option Value)) : Nat := (values.filter Option.isSome).size

/-- Finds the values of the parts that do not hold themselves, from the last part to the first
and again while more are found. Shared mappings are marked. -/
def settle (parts : Parts) (shared : Array Bool) :
    (passes : Nat) → Array (Option Value) → Array (Option Value)
  | 0, values => values
  | passes + 1, values =>
    let next := (List.range parts.size).foldr (fun id values =>
      match values[id]?, parts.get? id with
      | some none, some part =>
        match part.value? (fun _ pair => pair) (fun id => (values[id]?).join) with
        | some (.map entries) =>
          let value := Value.map entries
          values.setIfInBounds id (some (if shared.getD id false then .marked id value else value))
        | some value => values.setIfInBounds id (some value)
        | none => values
      | _, _ => values) values
    if known next = known values then next else settle parts shared passes next

/-- The value of a part at a place within the parts of `around`. What holds itself, or holds what
does, is marked. -/
def valueWithin (parts : Parts) (values : Array (Option Value)) :
    (fuel : Nat) → (around : List Nat) → (id : Nat) → Option Value
  | 0, _, _ => none
  | fuel + 1, around, id =>
    if around.contains id then some (.again id)
    else
      match values[id]? with
      | some (some value) => some value
      | _ =>
        ((parts.get? id).bind fun part =>
          part.value? (fun index => .marked (parts.size * (index + 1) + id))
            (valueWithin parts values fuel (id :: around))).map (.marked id)

def value (parts : Parts) (root : Nat) : Value :=
  let values := parts.settle (parts.shared root) (parts.size + 1) (Array.replicate parts.size none)
  (parts.valueWithin values (parts.size + 1) [] root).getD .null

end Parts

end ApiPrep.Yaml
