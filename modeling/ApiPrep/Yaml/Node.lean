import ApiPrep.Yaml.Tag
import ApiPrep.Yaml.Token

namespace ApiPrep.Yaml

/-- A part of a document before it becomes a value; the parts in it are given by number. -/
inductive Node where
  | scalar (tag : Tag) (text : List Rune)
  | sequence (tag : Tag) (items : List Nat)
  | mapping (tag : Tag) (pairs : Array (Nat × Nat))

/-- The parts of a document. A part may stand in several places, and within itself. -/
abbrev Nodes := Array Node

abbrev Handles := List (List Rune × List Rune)

abbrev Anchors := List (List Rune × Nat)

namespace Node

def empty : Node := .scalar .null []

inductive Given where
  | nothing
  | unspecific
  | name (full : List Rune)
deriving DecidableEq, Repr

def givenTag (handles : Handles) (t : TagName) : Except Fault Given :=
  match t.handle with
  | none => .ok (if t.suffix = [.char '!'] then .unspecific else .name t.suffix)
  | some handle =>
    match handles.lookup handle with
    | some start => .ok (.name (start ++ t.suffix))
    | none => .error .malformed

def givenBy (handles : Handles) : Option TagName → Except Fault Given
  | none => .ok .nothing
  | some t => givenTag handles t

def Given.orElse (g : Given) (usual : Tag) : Tag :=
  match g with
  | .name full => .ofName full
  | _ => usual

/-- The tag of a scalar: where none is given, a plain text speaks for itself. -/
def Given.ofScalar (g : Given) (text : List Rune) (plain : Bool) : Tag :=
  match g with
  | .name full => .ofName full
  | .unspecific => .ofPlain (if text = [.char '\n'] then text else withoutBreak text)
  | .nothing => if plain then .ofPlain text else .str

/-- What is left to read, with the nodes that have been found and their anchors. -/
structure Source where
  tokens : List Token
  nodes : Nodes := #[]
  anchors : Anchors := []

namespace Source

def add (s : Source) (node : Node) : Nat × Source :=
  (s.nodes.size, { s with nodes := s.nodes.push node })

def addAt (s : Source) (anchor : Option (List Rune)) (node : Node) : Nat × Source :=
  let (id, s) := s.add node
  (id, { s with anchors := (anchor.toList.map (·, id)) ++ s.anchors })

def complete (s : Source) (id : Nat) (node : Node) : Nat × Source :=
  (id, { s with nodes := s.nodes.setIfInBounds id node })

def leave (s : Source) : Nat × Source := s.add empty

end Source

def unexpected {α : Type} : List Token → Except Fault α
  | .fault f :: _ => .error f
  | _ => .error .malformed

def seen : List Token → Except Fault (List Token)
  | .fault f :: _ => .error f
  | tokens => .ok tokens

/-- The anchor and the tag before a node, in either order. Where there is only one of them, the
token after it has been looked at. -/
def properties : List Token → Except Fault (Option (List Rune) × Option TagName × List Token)
  | .anchor a :: .tag t :: rest => .ok (some a, some t, rest)
  | .anchor a :: rest => return (some a, none, ← seen rest)
  | .tag t :: .anchor a :: rest => .ok (some a, some t, rest)
  | .tag t :: rest => return (none, some t, ← seen rest)
  | rest => .ok (none, none, rest)

/-- Where a node stands: in a block, in a block where a list may start without being indented,
or within brackets. -/
inductive Place where
  | block
  | blockOrList
  | flow
deriving DecidableEq, Repr

def leftOut (ends : List Token) (tokens : List Token) : Bool :=
  match tokens with
  | t :: _ => ends.contains t
  | [] => true

def absent (anchor : Option (List Rune)) (given : Given) (marked : Bool) (s : Source) :
    Except Fault (Nat × Source) :=
  if marked then
    match given with
    | .name full => .ok (s.addAt anchor (.scalar (.ofName full) []))
    | _ => .ok (s.addAt anchor empty)
  else unexpected s.tokens

def orNothing (ends : List Token) (read : Source → Except Fault (Nat × Source)) (s : Source) :
    Except Fault (Nat × Source) :=
  if leftOut ends s.tokens then .ok s.leave else read s

/-- The value after its sign, or none where the sign or the value is missing. -/
def valueOrNothing (ends : List Token) (read : Source → Except Fault (Nat × Source)) (s : Source) :
    Except Fault (Nat × Source) :=
  match s.tokens with
  | .value :: rest => orNothing ends read { s with tokens := rest }
  | _ => .ok s.leave

def afterComma (first : Bool) (tokens : List Token) : Except Fault (List Token) :=
  if first then .ok tokens
  else
    match tokens with
    | .flowEntry :: rest => .ok rest
    | tokens => unexpected tokens

/-- A pair in brackets, after the sign of its key: a mapping of its own. -/
def singlePair (read : Source → Except Fault (Nat × Source)) (s : Source) :
    Except Fault (Nat × Source) := do
  let (id, s) := s.leave
  let (key, s) ← orNothing [.value, .flowEntry, .flowSequenceEnd] read s
  let (value, s) ← valueOrNothing [.flowEntry, .flowSequenceEnd] read s
  return s.complete id (.mapping .map #[(key, value)])

mutual

/-- Reads a node; at most `depth` collections may be open within it. -/
def ofTokens (handles : Handles) :
    (fuel depth : Nat) → Place → Source → Except Fault (Nat × Source)
  | 0, _, _, s => unexpected s.tokens
  | fuel + 1, depth, place, s =>
    match s.tokens with
    | .alias a :: rest =>
      match s.anchors.lookup a with
      | some id => .ok (id, { s with tokens := rest })
      | none => .error .malformed
    | tokens => do
      let (anchor, tag, rest) ← properties tokens
      let given ← givenBy handles tag
      let rest ← seen rest
      if anchor.any fun a => (s.anchors.lookup a).isSome then .error .malformed
      else
        content handles fuel depth place anchor given (anchor.isSome || tag.isSome)
          { s with tokens := rest }
termination_by structural fuel => fuel

def content (handles : Handles) :
    (fuel depth : Nat) → Place → (anchor : Option (List Rune)) → Given → (marked : Bool) → Source →
      Except Fault (Nat × Source)
  | 0, _, _, _, _, _, s => unexpected s.tokens
  | fuel + 1, depth, place, anchor, given, marked, s =>
    match s.tokens, depth with
    | .scalar text plain :: rest, _ =>
      .ok ({ s with tokens := rest }.addAt anchor (.scalar (given.ofScalar text plain) text))
    | .blockEntry :: _, depth + 1 =>
      if place = .blockOrList then do
        let (id, s) := s.addAt anchor empty
        let (items, s) ← listItems handles fuel depth s
        return s.complete id (.sequence (given.orElse .seq) items)
      else absent anchor given marked s
    | .flowSequenceStart :: rest, depth + 1 => do
      let (id, s) := { s with tokens := rest }.addAt anchor empty
      let (items, s) ← flowItems handles fuel depth true s
      return s.complete id (.sequence (given.orElse .seq) items)
    | .flowMappingStart :: rest, depth + 1 => do
      let (id, s) := { s with tokens := rest }.addAt anchor empty
      let (pairs, s) ← flowPairs handles fuel depth true s
      return s.complete id (.mapping (given.orElse .map) pairs.toArray)
    | .blockSequenceStart :: rest, depth + 1 =>
      if place = .flow then absent anchor given marked s
      else do
        let (id, s) := { s with tokens := rest }.addAt anchor empty
        let (items, s) ← blockItems handles fuel depth s
        return s.complete id (.sequence (given.orElse .seq) items)
    | .blockMappingStart :: rest, depth + 1 =>
      if place = .flow then absent anchor given marked s
      else do
        let (id, s) := { s with tokens := rest }.addAt anchor empty
        let (pairs, s) ← blockPairs handles fuel depth s
        return s.complete id (.mapping (given.orElse .map) pairs.toArray)
    | .blockEntry :: _, 0 | .flowSequenceStart :: _, 0 | .flowMappingStart :: _, 0
    | .blockSequenceStart :: _, 0 | .blockMappingStart :: _, 0 => .error (.broken .tooDeep)
    | _, _ => absent anchor given marked s
termination_by structural fuel => fuel

def blockItems (handles : Handles) :
    (fuel depth : Nat) → Source → Except Fault (List Nat × Source)
  | 0, _, s => unexpected s.tokens
  | fuel + 1, depth, s =>
    match s.tokens with
    | .blockEntry :: rest => do
      let (item, s) ← orNothing [.blockEntry, .blockEnd] (ofTokens handles fuel depth .block)
        { s with tokens := rest }
      let (items, s) ← blockItems handles fuel depth s
      return (item :: items, s)
    | .blockEnd :: rest => .ok ([], { s with tokens := rest })
    | tokens => unexpected tokens
termination_by structural fuel => fuel

def listItems (handles : Handles) :
    (fuel depth : Nat) → Source → Except Fault (List Nat × Source)
  | 0, _, s => unexpected s.tokens
  | fuel + 1, depth, s =>
    match s.tokens with
    | .blockEntry :: rest => do
      let (item, s) ← orNothing [.blockEntry, .key, .value, .blockEnd]
        (ofTokens handles fuel depth .block) { s with tokens := rest }
      let (items, s) ← listItems handles fuel depth s
      return (item :: items, s)
    | _ => .ok ([], s)
termination_by structural fuel => fuel

def blockPairs (handles : Handles) :
    (fuel depth : Nat) → Source → Except Fault (List (Nat × Nat) × Source)
  | 0, _, s => unexpected s.tokens
  | fuel + 1, depth, s =>
    match s.tokens with
    | .blockEnd :: rest => .ok ([], { s with tokens := rest })
    | .key :: rest => do
      let (key, s) ← orNothing [.key, .value, .blockEnd]
        (ofTokens handles fuel depth .blockOrList) { s with tokens := rest }
      let (value, s) ← valueOrNothing [.key, .value, .blockEnd]
        (ofTokens handles fuel depth .blockOrList) s
      let (pairs, s) ← blockPairs handles fuel depth s
      return ((key, value) :: pairs, s)
    | tokens => unexpected tokens
termination_by structural fuel => fuel

/-- Reads the items of a list in brackets and its end; before all but the first of them stands
a comma. A pair among them is a mapping of its own. -/
def flowItems (handles : Handles) :
    (fuel depth : Nat) → (first : Bool) → Source → Except Fault (List Nat × Source)
  | 0, _, _, s => unexpected s.tokens
  | fuel + 1, depth, first, s =>
    match s.tokens with
    | .flowSequenceEnd :: rest => .ok ([], { s with tokens := rest })
    | tokens => do
      match ← afterComma first tokens with
      | .flowSequenceEnd :: rest => return ([], { s with tokens := rest })
      | .key :: rest =>
        match depth with
        | 0 => .error (.broken .tooDeep)
        | depth + 1 =>
          let (item, s) ← singlePair (ofTokens handles fuel depth .flow) { s with tokens := rest }
          let (items, s) ← flowItems handles fuel (depth + 1) false s
          return (item :: items, s)
      | tokens =>
        let (item, s) ← ofTokens handles fuel depth .flow { s with tokens := tokens }
        let (items, s) ← flowItems handles fuel depth false s
        return (item :: items, s)
termination_by structural fuel => fuel

/-- Reads the pairs of a mapping in braces and its end; before all but the first of them stands
a comma. A key may be alone. -/
def flowPairs (handles : Handles) :
    (fuel depth : Nat) → (first : Bool) → Source → Except Fault (List (Nat × Nat) × Source)
  | 0, _, _, s => unexpected s.tokens
  | fuel + 1, depth, first, s =>
    match s.tokens with
    | .flowMappingEnd :: rest => .ok ([], { s with tokens := rest })
    | tokens => do
      match ← afterComma first tokens with
      | .flowMappingEnd :: rest => return ([], { s with tokens := rest })
      | .key :: rest =>
        let (key, s) ← orNothing [.value, .flowEntry, .flowMappingEnd]
          (ofTokens handles fuel depth .flow) { s with tokens := rest }
        let (value, s) ← valueOrNothing [.flowEntry, .flowMappingEnd]
          (ofTokens handles fuel depth .flow) s
        let (pairs, s) ← flowPairs handles fuel depth false s
        return ((key, value) :: pairs, s)
      | tokens =>
        let (key, s) ← ofTokens handles fuel depth .flow { s with tokens := tokens }
        let (value, s) := s.leave
        let (pairs, s) ← flowPairs handles fuel depth false s
        return ((key, value) :: pairs, s)
termination_by structural fuel => fuel

end

end Node

end ApiPrep.Yaml
