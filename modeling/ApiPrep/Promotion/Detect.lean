import ApiPrep.Catalog.Match
import ApiPrep.Naming.FileNames
import ApiPrep.Promotion

namespace ApiPrep.Promotion

/-- What is cut from the path of the creation to get the name of the entity. -/
structure Affixes where
  lead : Text := "/Api"
  ending : Text := "/Add"
deriving DecidableEq, Repr

def entityNameOf (a : Affixes) (path : Text) : Text :=
  Naming.respell
    (fun s => Text.trimBy (· == '/')
      (Text.dropEnding a.ending.toList (Text.dropLead a.lead.toList s)))
    path

/-- The items at the given indexes, and all others, both in their order. -/
def partitionAt {α : Type} (indexes : List Nat) : (here : Nat) → List α → List α × List α
  | _, [] => ([], [])
  | here, a :: rest =>
    let (taken, left) := partitionAt indexes (here + 1) rest
    if indexes.contains here then (a :: taken, left) else (taken, a :: left)

def unclaimed (c : Catalog) (claims : List Catalog.Claim) : List Text :=
  (c.signatures.map Signature.name).filter fun name =>
    !(claims.map Catalog.Claim.signature).contains name

def creationOf? (c : Catalog) (operations : List Operation) (claims : List Catalog.Claim) :
    Option Operation := do
  let claim ← claims.find? (·.signature = c.creation)
  operations[claim.index]?

/-- Promotes a group all of whose signatures are claimed, if its creation returns a type. -/
def detect (c : Catalog) (a : Affixes) (operations : List Operation) :
    Traced (Option Promotion) := do
  let claims ← c.claims operations
  match unclaimed c claims with
  | [] =>
    match creationOf? c operations claims with
    | none => return none
    | some creation =>
      let entityType := creation.returnType.getD ""
      if entityType = "" then
        Traced.note .info ("Creation operation " ++ Text.quoted creation.operationId ++ " at " ++
          creation.path ++ " has no return type; not promoting")
        return none
      else
        let (removed, remaining) := partitionAt (claims.map Catalog.Claim.index) 0 operations
        let entityName := entityNameOf a creation.path
        Traced.note .debug ("Promoted group to generic base of " ++ entityType ++
          " (" ++ entityName ++ s!"); {remaining.length} operations remain")
        return some ⟨entityType, entityName, removed, remaining⟩
  | missing => do
    if !claims.isEmpty then
      Traced.note .debug
        (s!"Partial generic-base match ({claims.length}/{c.signatures.length}); missing " ++
          Text.intercalate ", " missing)
    return none

end ApiPrep.Promotion
