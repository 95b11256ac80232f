import ApiPrep.Yaml.Node

namespace ApiPrep.Yaml

def Node.tag : Node → Tag
  | .scalar tag _ | .sequence tag _ | .mapping tag _ => tag

def Node.retag (tag : Tag) : Node → Node
  | .scalar _ text => .scalar tag text
  | .sequence _ items => .sequence tag items
  | .mapping _ pairs => .mapping tag pairs

namespace Nodes

def tag? (nodes : Nodes) (id : Nat) : Option Tag := nodes[id]?.map Node.tag

def pairs? (nodes : Nodes) (id : Nat) : Option (Array (Nat × Nat)) :=
  match nodes[id]? with
  | some (.mapping _ pairs) => some pairs
  | _ => none

def withPairs (nodes : Nodes) (id : Nat) (pairs : Array (Nat × Nat)) : Nodes :=
  nodes.modify id fun
    | .mapping tag _ => .mapping tag pairs
    | node => node

def mostSteps : Nat := 0x40000000

mutual

/-- Goes over the pairs of a mapping from an index on. Merge keys leave it; the pairs that they
bring in, of which `merged` have been found, are put in front at the end. A mapping is merged
itself before its pairs are taken. A key that is an equals sign becomes a text. -/
def mergeFrom : (fuel : Nat) → (id index : Nat) → (merged : Array (Nat × Nat)) → Nodes →
    Except Fault Nodes
  | 0, _, _, _, _ => .error (.broken .tooDeep)
  | fuel + 1, id, index, merged, nodes =>
    match nodes.pairs? id with
    | none => .error .malformed
    | some pairs =>
      match pairs[index]? with
      | none => .ok (if merged.isEmpty then nodes else nodes.withPairs id (merged ++ pairs))
      | some (key, value) =>
        match nodes.tag? key with
        | some .merge => do
          let nodes := nodes.withPairs id (pairs.eraseIdxIfInBounds index)
          match nodes[value]? with
          | some (.mapping ..) =>
            let nodes ← mergeFrom fuel value 0 #[] nodes
            mergeFrom fuel id index (merged ++ (nodes.pairs? value).getD #[]) nodes
          | some (.sequence _ items) =>
            let (sources, nodes) ← mergeEach fuel items nodes
            let merged := sources.foldr (fun pairs merged => merged ++ pairs) merged
            mergeFrom fuel id index merged nodes
          | _ => .error .malformed
        | some .value => mergeFrom fuel id (index + 1) merged (nodes.modify key (·.retag .str))
        | _ => mergeFrom fuel id (index + 1) merged nodes
termination_by structural fuel => fuel

/-- Merges mappings, with the pairs that each has then. -/
def mergeEach : (fuel : Nat) → List Nat → Nodes →
    Except Fault (List (Array (Nat × Nat)) × Nodes)
  | 0, _, _ => .error (.broken .tooDeep)
  | _ + 1, [], nodes => .ok ([], nodes)
  | fuel + 1, id :: rest, nodes => do
    let nodes ← mergeFrom fuel id 0 #[] nodes
    let pairs := (nodes.pairs? id).getD #[]
    let (sources, nodes) ← mergeEach fuel rest nodes
    return (pairs :: sources, nodes)
termination_by structural fuel => fuel

end

def merge (nodes : Nodes) (id : Nat) : Except Fault Nodes := mergeFrom mostSteps id 0 #[] nodes

end Nodes

end ApiPrep.Yaml
