import ApiPrep.Operation

namespace ApiPrep

open Record

structure ImportRecord where
  source : Text
  filename : Option Text := none
  classname : Option Text := none
deriving DecidableEq, Repr, Inhabited

namespace ImportRecord

def sourceMember : Member Text := .required "import" "import_" .text
def filenameMember : Member (Option Text) := .optional "filename" "filename" .text
def classnameMember : Member (Option Text) := .optional "classname" "classname" .text

def title : Text := "ImportRecord"

def form : Form ImportRecord :=
  .record title
    (fun entries =>
      ImportRecord.mk <$> sourceMember.read entries <*> filenameMember.read entries
        <*> classnameMember.read entries)
    (fun spelling r =>
      [sourceMember.write spelling r.source, filenameMember.write spelling r.filename,
        classnameMember.write spelling r.classname])

end ImportRecord

/-- The operations of one tag, which make up one service class. -/
structure OperationGroup where
  classname : Text := "DefaultService"
  operations : List Operation := []
  imports : List ImportRecord := []
deriving DecidableEq, Repr, Inhabited

namespace OperationGroup

def classnameMember : Member Text := .orElse "classname" "classname" .text "DefaultService"
def operationsMember : Member (List Operation) := .list "operations" "operations" Operation.form
def importsMember : Member (List ImportRecord) := .list "imports" "imports" ImportRecord.form

def title : Text := "OperationGroup"

def form : Form OperationGroup :=
  .record title
    (fun entries =>
      OperationGroup.mk <$> classnameMember.read entries <*> operationsMember.read entries
        <*> importsMember.read entries)
    (fun spelling g =>
      [classnameMember.write spelling g.classname, operationsMember.write spelling g.operations,
        importsMember.write spelling g.imports])

end OperationGroup

structure SchemaModel where
  classname : Text
  name : Option Text := none
  imports : List Text := []
  isAlias : Bool := false
deriving DecidableEq, Repr, Inhabited

namespace SchemaModel

def classnameMember : Member Text := .required "classname" "classname" .text
def nameMember : Member (Option Text) := .optional "name" "name" .text
def importsMember : Member (List Text) := .list "imports" "imports" .text
def isAliasMember : Member Bool := .orElse "isAlias" "is_alias" .flag false

def title : Text := "SchemaModel"

def form : Form SchemaModel :=
  .record title
    (fun entries =>
      SchemaModel.mk <$> classnameMember.read entries <*> nameMember.read entries
        <*> importsMember.read entries <*> isAliasMember.read entries)
    (fun spelling m =>
      [classnameMember.write spelling m.classname, nameMember.write spelling m.name,
        importsMember.write spelling m.imports, isAliasMember.write spelling m.isAlias])

end SchemaModel

structure InputDocument where
  groups : List OperationGroup := []
  models : List SchemaModel := []
deriving DecidableEq, Repr, Inhabited

namespace InputDocument

def groupsMember : Member (List OperationGroup) := .list "groups" "groups" OperationGroup.form
def modelsMember : Member (List SchemaModel) := .list "models" "models" SchemaModel.form

def title : Text := "InputDocument"

def form : Form InputDocument :=
  .record title
    (fun entries =>
      InputDocument.mk <$> groupsMember.read entries <*> modelsMember.read entries)
    (fun spelling d =>
      [groupsMember.write spelling d.groups, modelsMember.write spelling d.models])

end InputDocument

end ApiPrep
