import ApiPrep.Catalog
import ApiPrep.Parameter.Compare
import ApiPrep.Trace

namespace ApiPrep

def Signature.fits (s : Signature) (op : Operation) : Bool :=
  s.name == op.operationId && s.httpMethod == op.httpMethod && s.hasBody == op.hasBody &&
    Parameter.sameSet (s.queryParams.map some) (op.queryParams.map some) &&
    Parameter.sameSet (s.pathParams.map some) (op.pathParams.map some)

namespace Catalog

structure Claim where
  signature : Text
  index : Nat
deriving DecidableEq, Repr

def furtherFit (s : Signature) (first op : Operation) : Text :=
  "Operation " ++ Text.quoted op.operationId ++ " also matches signature " ++ Text.quoted s.name ++
    "; keeping the first match " ++ Text.quoted first.operationId

/-- Searches the operations from `index` on for those that fit a signature. The first that is
not claimed yet is its claim; each further one is noted. -/
def searchFor (s : Signature) (claimed : List Nat) (first : Option (Nat × Operation)) :
    (index : Nat) → List Operation → Traced (Option Nat)
  | _, [] => pure (first.map (·.1))
  | index, op :: rest =>
    if claimed.contains index || !s.fits op then searchFor s claimed first (index + 1) rest
    else
      match first with
      | none => searchFor s (index :: claimed) (some (index, op)) (index + 1) rest
      | some (_, kept) => do
        Traced.note .debug (furtherFit s kept op)
        searchFor s claimed first (index + 1) rest

/-- The claims of signatures in their order; no operation is claimed twice. -/
def claimsOf (operations : List Operation) :
    (claimed : List Nat) → List Signature → Traced (List Claim)
  | _, [] => pure []
  | claimed, s :: rest => do
    match ← searchFor s claimed none 0 operations with
    | none => claimsOf operations claimed rest
    | some index =>
      let claims ← claimsOf operations (index :: claimed) rest
      return ⟨s.name, index⟩ :: claims

def claims (c : Catalog) (operations : List Operation) : Traced (List Claim) :=
  claimsOf operations [] c.signatures

end Catalog

end ApiPrep
