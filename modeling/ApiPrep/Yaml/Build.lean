import ApiPrep.Value.Members
import ApiPrep.Yaml.Merge
import ApiPrep.Yaml.Parts
import ApiPrep.Yaml.Scalar

namespace ApiPrep.Yaml

def Nodes.text (nodes : Nodes) : (fuel : Nat) → (id : Nat) → Except Fault (List Rune)
  | 0, _ => .error (.broken .tooDeep)
  | fuel + 1, id =>
    match nodes[id]? with
    | some (.scalar _ text) => .ok text
    | some (.mapping _ pairs) =>
      match pairs.find? fun pair => nodes.tag? pair.1 == some .value with
      | some (_, value) => nodes.text fuel value
      | none => .error .malformed
    | _ => .error .malformed

def Nodes.scalar (nodes : Nodes) (id : Nat) : Except Fault Scalar :=
  match nodes[id]? with
  | none => .error .malformed
  | some node =>
    if node.tag = .merge ∨ node.tag = .value ∨ node.tag = .unknown then .error .malformed
    else do
      let text ← nodes.text (nodes.size + 1) id
      match node.tag, node with
      | .timestamp, .mapping .. => .error (.broken .noText)
      | tag, _ => scalarOfText tag text

/-- The nodes of a document and the parts that have been made of them. Those in `waiting`, the
last of which was met first, are still empty. -/
structure Builder where
  nodes : Nodes
  parts : Parts
  waiting : List Nat

namespace Builder

def put (b : Builder) (id : Nat) (part : Part) : Builder :=
  { b with parts := b.parts.setIfInBounds id (some part) }

def emptyPart? : Tag → Option Part
  | .seq => some (.list [])
  | .map => some (.map [])
  | .set => some (.set [])
  | .omap | .pairs => some (.ordered [])
  | _ => none

/-- Meets a node: a scalar is built at once, a collection has to wait. -/
def meet (b : Builder) (id : Nat) : Except Fault Builder :=
  if (b.parts.get? id).isSome then .ok b
  else
    match (b.nodes.tag? id).bind emptyPart? with
    | some part => .ok { b.put id part with waiting := id :: b.waiting }
    | none => do
      let s ← b.nodes.scalar id
      return b.put id (.scalar s)

/-- Whether a node is the one spelling of what is no number that is always the same key. -/
def isCommonUndefined (b : Builder) (id : Nat) : Bool :=
  match b.nodes.text (b.nodes.size + 1) id with
  | .ok text =>
    let body := (signed (Text.lower (text.filter (· != '_')))).2
    body == ".nan".runes
  | .error _ => false

def sameKey (b : Builder) (s t : Scalar × Nat) : Bool :=
  s.1.same t.1 ||
    match s.1, t.1 with
    | .float x, .float y =>
      x.isNaN && y.isNaN &&
        (s.2 == t.2 || (b.isCommonUndefined s.2 && b.isCommonUndefined t.2))
    | _, _ => false

def putKey (b : Builder) (key : Scalar × Nat) (value : Nat) :
    List ((Scalar × Nat) × Nat) → List ((Scalar × Nat) × Nat)
  | [] => [(key, value)]
  | (known, held) :: rest =>
    if b.sameKey known key then (known, value) :: rest
    else (known, held) :: b.putKey key value rest

def meetPairs (b : Builder) (entries : List ((Scalar × Nat) × Nat)) :
    List (Nat × Nat) → Except Fault (List ((Scalar × Nat) × Nat) × Builder)
  | [] => .ok (entries, b)
  | (key, value) :: rest => do
    let b ← b.meet key
    match b.parts.get? key with
    | some (.scalar s) =>
      let b ← b.meet value
      b.meetPairs (b.putKey (s, key) value entries) rest
    | _ => .error .malformed

/-- Meets the entries of a mapping after what is merged into it. -/
def meetEntries (b : Builder) (id : Nat) :
    Except Fault (List ((Scalar × Nat) × Nat) × Builder) := do
  match b.nodes.pairs? id with
  | none => .error .malformed
  | some _ =>
    let nodes ← b.nodes.merge id
    let b := { b with nodes := nodes }
    b.meetPairs [] ((nodes.pairs? id).getD #[]).toList

def meetSingles (b : Builder) : List Nat → Except Fault (List (Nat × Nat) × Builder)
  | [] => .ok ([], b)
  | id :: rest =>
    match (b.nodes.pairs? id).map Array.toList with
    | some [(key, value)] => do
      let b ← b.meet key
      let b ← b.meet value
      let (pairs, b) ← b.meetSingles rest
      return ((key, value) :: pairs, b)
    | _ => .error .malformed

def fill (b : Builder) (id : Nat) : Except Fault Builder := do
  match b.parts.get? id, b.nodes[id]? with
  | some (.list _), some (.sequence _ items) =>
    let b ← items.foldlM meet b
    return b.put id (.list items)
  | some (.ordered _), some (.sequence _ items) =>
    let (pairs, b) ← b.meetSingles items
    return b.put id (.ordered pairs)
  | some (.map _), _ =>
    let (entries, b) ← b.meetEntries id
    return b.put id (.map (entries.map fun entry => (entry.1.1, entry.2)))
  | some (.set _), _ =>
    let (entries, b) ← b.meetEntries id
    return b.put id (.set (Members.inOrder (entries.map fun entry => entry.1.1)))
  | _, _ => .error .malformed

/-- Fills what waits, round by round. -/
def finish : (fuel : Nat) → (round : List Nat) → Builder → Except Fault Parts
  | 0, _, b => .ok b.parts
  | fuel + 1, id :: rest, b => do finish fuel rest (← b.fill id)
  | fuel + 1, [], b =>
    if b.waiting.isEmpty then .ok b.parts
    else finish fuel b.waiting.reverse { b with waiting := [] }

end Builder

def Nodes.build (nodes : Nodes) (root : Nat) : Except Fault Value := do
  let start : Builder := ⟨nodes, Array.replicate nodes.size none, []⟩
  let b ← start.meet root
  let parts ← Builder.finish (2 * nodes.size + 2) [] b
  return parts.value root

end ApiPrep.Yaml
