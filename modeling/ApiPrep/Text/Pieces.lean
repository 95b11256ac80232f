import ApiPrep.Text

namespace ApiPrep.Text

/-- The stretches of a text, or of its bytes, between the characters of a class, empty ones
included. -/
def splitBy {α : Type} (p : α → Bool) : List α → List (List α)
  | [] => [[]]
  | c :: rest =>
    match splitBy p rest with
    | [] => [[]]
    | piece :: pieces => if p c then [] :: piece :: pieces else (c :: piece) :: pieces

/-- The non-empty stretches of a text between the characters of a class. -/
def wordsBy (p : Rune → Bool) (s : List Rune) : List (List Rune) :=
  (splitBy p s).filter (· ≠ [])

def afterLead? : List Rune → List Rune → Option (List Rune)
  | [], s => some s
  | _ :: _, [] => none
  | l :: lead, c :: s => if l = c then afterLead? lead s else none

def dropLead (lead s : List Rune) : List Rune := (afterLead? lead s).getD s

def dropEnding (ending s : List Rune) : List Rune :=
  (dropLead ending.reverse s.reverse).reverse

end ApiPrep.Text
