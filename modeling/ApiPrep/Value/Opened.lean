import ApiPrep.Value

namespace ApiPrep

mutual

/-- Puts a whole collection wherever its mark stands again. -/
def Value.tie (mark : Nat) (whole : Value) : Value → Value
  | .scalar s => .scalar s
  | .list items => .list (tieItems mark whole items)
  | .map entries => .map (tieEntries mark whole entries)
  | .set members => .set members
  | .pair key value => .pair (Value.tie mark whole key) (Value.tie mark whole value)
  | .marked other v => .marked other (if other = mark then v else Value.tie mark whole v)
  | .again other => if other = mark then whole else .again other

def tieItems (mark : Nat) (whole : Value) : List Value → List Value
  | [] => []
  | item :: rest => Value.tie mark whole item :: tieItems mark whole rest

def tieEntries (mark : Nat) (whole : Value) : List (Scalar × Value) → List (Scalar × Value)
  | [] => []
  | (key, value) :: rest => (key, Value.tie mark whole value) :: tieEntries mark whole rest

end

/-- A value without its mark. What stands in it is whole again, so that it can be taken out. -/
def Value.opened : Value → Value
  | .marked mark collection => .tie mark (.marked mark collection) collection
  | value => value

def Value.entries? (value : Value) : Option Entries :=
  match value.opened with
  | .map entries => some entries
  | _ => none

def Value.items? (value : Value) : Option (List Value) :=
  match value.opened with
  | .list items => some items
  | _ => none

def Value.withEntry (value : Value) (key : Scalar) (held : Value) : Value :=
  match value with
  | .map (entries : Entries) => .map (entries.put key held)
  | other => other

structure Assignment where
  mark : Nat
  key : Scalar
  held : Value

mutual

/-- What a value has become by an assignment, wherever the mapping stands in it. -/
def Value.assign (a : Assignment) : Value → Value
  | .scalar s => .scalar s
  | .list items => .list (assignItems a items)
  | .map entries => .map (assignEntries a entries)
  | .set members => .set members
  | .pair key value => .pair (key.assign a) (value.assign a)
  | .marked mark v =>
    .marked mark (if mark = a.mark then (v.assign a).withEntry a.key a.held else v.assign a)
  | .again mark => .again mark

def assignItems (a : Assignment) : List Value → List Value
  | [] => []
  | item :: rest => item.assign a :: assignItems a rest

def assignEntries (a : Assignment) : List (Scalar × Value) → List (Scalar × Value)
  | [] => []
  | (key, value) :: rest => (key, value.assign a) :: assignEntries a rest

end

def Value.after (made : List Assignment) (value : Value) : Value :=
  made.foldl (fun value a => value.assign a) value

/-- Puts a key into a mapping; if the mapping has a mark, this is an assignment. -/
def Value.put (value : Value) (key : Scalar) (held : Value) : Value × List Assignment :=
  match value with
  | .marked mark v => ((Value.marked mark v).assign ⟨mark, key, held⟩, [⟨mark, key, held⟩])
  | value => (value.withEntry key held, [])

end ApiPrep
