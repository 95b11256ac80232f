import ApiPrep.Text.Pieces

namespace ApiPrep

/-- The path of a file, without what says nothing: empty steps and steps that stay. -/
structure Place where
  /-- The slashes at the start: none, one, or two where there are exactly two. -/
  root : Nat
  steps : List Text
deriving DecidableEq, Repr

namespace Place

def pieces (text : Text) : List Text :=
  (Text.splitBy (· == .char '/') text.toList).map Text.ofList

def ofText (text : Text) : Place :=
  let slashes := (text.toList.takeWhile (· == .char '/')).length
  { root := if slashes = 2 then 2 else min slashes 1
    steps := (pieces text).filter fun piece => piece ≠ "" && piece ≠ "." }

def text (p : Place) : Text :=
  match p.root, p.steps with
  | 0, [] => "."
  | n, steps => Text.ofList (List.replicate n '/') ++ Text.intercalate "/" steps

def within (p : Place) (name : Text) : Place := { p with steps := p.steps ++ [name] }

/-- The point in a name that is neither its first nor its last character, with what follows. -/
def ending (p : Place) : Text :=
  let name := (p.steps.getLast?.getD "").toList
  let after := name.reverse.takeWhile (· != .char '.')
  let before := name.length - after.length - 1
  if after.length < name.length ∧ after ≠ [] ∧ before ≠ 0 then
    Text.ofList ('.' :: after.reverse)
  else ""

end Place

end ApiPrep
