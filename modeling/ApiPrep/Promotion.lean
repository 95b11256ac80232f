import ApiPrep.Operation

namespace ApiPrep

open Record

/-- A group that extends the generic base of an entity: the operations that the base has, and
those that the group keeps. -/
structure Promotion where
  entityType : Text
  entityName : Text
  removed : List Operation := []
  remaining : List Operation := []
deriving DecidableEq, Repr, Inhabited

namespace Promotion

def entityTypeMember : Member Text := .required "entityTypeName" "entity_type_name" .text
def entityNameMember : Member Text := .required "entityName" "entity_name" .text
def removedMember : Member (List Operation) :=
  .tuple "removedOperations" "removed_operations" Operation.form
def remainingMember : Member (List Operation) :=
  .tuple "remainingOperations" "remaining_operations" Operation.form

def title : Text := "GenericBaseResult"

def form : Form Promotion :=
  .record title
    (fun entries =>
      Promotion.mk <$> entityTypeMember.read entries <*> entityNameMember.read entries
        <*> removedMember.read entries <*> remainingMember.read entries)
    (fun spelling p =>
      [entityTypeMember.write spelling p.entityType, entityNameMember.write spelling p.entityName,
        removedMember.write spelling p.removed, remainingMember.write spelling p.remaining])

end Promotion

end ApiPrep
