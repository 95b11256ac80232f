import ApiPrep.Naming.Case

namespace ApiPrep.Naming

open Text

/-- The length of the longest placeholder at the start of a text: from its opening brace to the
last closing brace before the next opening one. -/
def placeholderSize? : List Rune → Option Nat
  | '{' :: rest =>
    let body := (rest.takeWhile (· ≠ .char '{')).reverse.dropWhile (· ≠ .char '}')
    if body.isEmpty then none else some (body.length + 1)
  | _ => none

/-- A path without its placeholder segments; the first `skip` characters belong to one. -/
def dropPlaceholders : (skip : Nat) → List Rune → List Rune
  | _, [] => []
  | skip + 1, _ :: rest => dropPlaceholders skip rest
  | 0, c :: rest =>
    if c = '/' then
      match placeholderSize? rest with
      | some size => dropPlaceholders size rest
      | none => c :: dropPlaceholders 0 rest
    else c :: dropPlaceholders 0 rest

/-- The name of the last literal segment of a path, or else the method in lower case. -/
def fallbackId (path method : List Rune) : List Rune :=
  let segments := wordsBy (· == '/') (dropPlaceholders 0 path)
  let name := sanitize (segments.getLast?.getD [])
  if name.isEmpty then lower method else name

end ApiPrep.Naming
