import ApiPrep.Yaml.Build
import ApiPrep.Yaml.Token.Scan

namespace ApiPrep.Yaml

def mostOpen : Nat := 480

def usualHandles : Handles := [(['!'], ['!']), (['!', '!'], Tag.core)]

/-- The handles that directives set, and what follows the directives. The version must be of
the first kind, and nothing may be set twice. -/
def directives (version : Bool) (set : Handles) :
    List Token → Except Fault (Handles × List Token)
  | .version major :: rest =>
    if version || major ≠ 1 then .error .malformed else directives true set rest
  | .tagHandle handle start :: rest =>
    if (set.lookup handle).isSome then .error .malformed
    else directives version ((handle, start) :: set) rest
  | .otherDirective :: rest => directives version set rest
  | tokens => .ok (set ++ usualHandles, tokens)

def isDirective : Token → Bool
  | .version _ | .tagHandle .. | .otherDirective => true
  | _ => false

structure Document where
  nodes : Nodes
  root : Nat

def Document.empty : Document := ⟨#[Node.empty], 0⟩

def root (handles : Handles) (tokens : List Token) : Except Fault (Document × List Token) := do
  let (id, s) ← Node.ofTokens handles (4 * tokens.length + 8) mostOpen .block { tokens }
  return (⟨s.nodes, id⟩, s.tokens)

def openedDocument (tokens : List Token) : Except Fault (Option Document × List Token) := do
  match tokens.dropWhile (· == .documentEnd) with
  | [.streamEnd] => return (none, [.streamEnd])
  | tokens =>
    let (handles, tokens) ← directives false [] tokens
    match tokens with
    | .documentStart :: rest =>
      match rest with
      | t :: _ =>
        if isDirective t || t == .documentStart || t == .documentEnd || t == .streamEnd then
          return (some .empty, rest)
        else
          let (document, rest) ← root handles rest
          return (some document, rest)
      | [] => .error .malformed
    | tokens => Node.unexpected tokens

def firstDocument (tokens : List Token) : Except Fault (Option Document × List Token) :=
  match tokens with
  | t :: _ =>
    if isDirective t || t == .documentStart || t == .streamEnd then openedDocument tokens
    else do
      let (document, rest) ← root usualHandles tokens
      return (some document, rest)
  | [] => .error .malformed

/-- Makes sure that nothing but ends of documents is left. A second document is refused when it is
opened, after its directives have been read. -/
def finished (tokens : List Token) : Except Fault Unit := do
  match tokens.dropWhile (· == .documentEnd) with
  | [.streamEnd] => return ()
  | tokens =>
    let (_, tokens) ← directives false [] tokens
    Node.unexpected tokens

def document (text : List Rune) : Except Fault (Option Document) := do
  let (document, rest) ← firstDocument (tokens text)
  finished rest
  return document

/-- Reads a YAML text. Where it holds no document the value is null. -/
def read (text : Text) : Except Fault Value := do
  match ← document text.toList with
  | none => return .null
  | some document => document.nodes.build document.root

end ApiPrep.Yaml
