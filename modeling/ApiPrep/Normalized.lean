import ApiPrep.Document
import ApiPrep.Promotion
import ApiPrep.Text.Case.Lower
import ApiPrep.Text.Pieces

namespace ApiPrep

open Record

/-- An operation as it is rendered: its method in lower case, its path with expressions for
placeholders. -/
structure ClientOperation extends Operation where
deriving DecidableEq, Repr, Inhabited

namespace ClientOperation

def usesMethod (op : ClientOperation) (method : Text) : Bool :=
  Text.lower op.httpMethod.toList == method.toList

def isGet (op : ClientOperation) : Bool := op.usesMethod "get"
def isPost (op : ClientOperation) : Bool := op.usesMethod "post"
def isPut (op : ClientOperation) : Bool := op.usesMethod "put"
def isDelete (op : ClientOperation) : Bool := op.usesMethod "delete"

def pathNoApi (op : ClientOperation) : Text :=
  Text.ofList (Text.dropLead "/Api".runes op.path.toList)

def title : Text := "DecoratedOperation"

/-- How rendered operations stand in documents; what is derived is written only. -/
def form : Form ClientOperation :=
  .record title (fun entries => ClientOperation.mk <$> Operation.ofEntries entries)
    (fun spelling op =>
      op.toOperation.toEntries spelling ++
        [derived spelling "isGet" "is_get" (.bool op.isGet),
          derived spelling "isPost" "is_post" (.bool op.isPost),
          derived spelling "isPut" "is_put" (.bool op.isPut),
          derived spelling "isDelete" "is_delete" (.bool op.isDelete),
          derived spelling "isPostOrPut" "is_post_or_put" (.bool (op.isPost || op.isPut)),
          derived spelling "pathNoApi" "path_no_api" (.text op.pathNoApi)])

end ClientOperation

structure ModelImport where
  classname : Text
  filename : Text
deriving DecidableEq, Repr, Inhabited

namespace ModelImport

def classnameMember : Member Text := .required "classname" "classname" .text
def filenameMember : Member Text := .required "filename" "filename" .text

def title : Text := "ModelImport"

def form : Form ModelImport :=
  .record title
    (fun entries =>
      ModelImport.mk <$> classnameMember.read entries <*> filenameMember.read entries)
    (fun spelling m =>
      [classnameMember.write spelling m.classname, filenameMember.write spelling m.filename])

end ModelImport

structure ModelImports where
  model : SchemaModel
  imports : List ModelImport := []
deriving DecidableEq, Repr, Inhabited

namespace ModelImports

def modelMember : Member SchemaModel := .required "model" "model" SchemaModel.form
def importsMember : Member (List ModelImport) := .list "imports" "imports" ModelImport.form

def title : Text := "ModelImports"

def form : Form ModelImports :=
  .record title
    (fun entries => ModelImports.mk <$> modelMember.read entries <*> importsMember.read entries)
    (fun spelling m =>
      [modelMember.write spelling m.model, importsMember.write spelling m.imports])

end ModelImports

structure NormalizedGroup where
  classname : Text
  apiFilename : Text
  operations : List ClientOperation := []
  imports : List ImportRecord := []
  genericBase : Option Promotion := none
deriving DecidableEq, Repr, Inhabited

namespace NormalizedGroup

def isGenericBase (g : NormalizedGroup) : Bool := g.genericBase.isSome
def genericTypeName (g : NormalizedGroup) : Option Text := g.genericBase.map (·.entityType)
def genericEntityName (g : NormalizedGroup) : Option Text := g.genericBase.map (·.entityName)
def hasExtraMethods (g : NormalizedGroup) : Bool := !g.operations.isEmpty

def classnameMember : Member Text := .required "classname" "classname" .text
def apiFilenameMember : Member Text := .required "apiFilename" "api_filename" .text
def operationsMember : Member (List ClientOperation) :=
  .list "operations" "operations" ClientOperation.form
def importsMember : Member (List ImportRecord) := .list "imports" "imports" ImportRecord.form
def genericBaseMember : Member (Option Promotion) :=
  .optional "genericBase" "generic_base" Promotion.form

def title : Text := "NormalizedGroup"

/-- How normalised groups stand in documents; of the promotion only the names are written. -/
def form : Form NormalizedGroup :=
  .record title
    (fun entries =>
      NormalizedGroup.mk <$> classnameMember.read entries <*> apiFilenameMember.read entries
        <*> operationsMember.read entries <*> importsMember.read entries
        <*> genericBaseMember.read entries)
    (fun spelling g =>
      let name := (Form.optional Form.text).write spelling
      [classnameMember.write spelling g.classname, apiFilenameMember.write spelling g.apiFilename,
        operationsMember.write spelling g.operations, importsMember.write spelling g.imports,
        derived spelling "isGenericBase" "is_generic_base" (.bool g.isGenericBase),
        derived spelling "genericTypeName" "generic_type_name"
          (name g.genericTypeName),
        derived spelling "genericEntityName" "generic_entity_name"
          (name g.genericEntityName),
        derived spelling "hasExtraMethods" "has_extra_methods"
          (.bool g.hasExtraMethods)])

end NormalizedGroup

structure NormalizedDocument where
  groups : List NormalizedGroup := []
  models : List ModelImports := []
deriving DecidableEq, Repr, Inhabited

namespace NormalizedDocument

def groupsMember : Member (List NormalizedGroup) := .list "groups" "groups" NormalizedGroup.form
def modelsMember : Member (List ModelImports) := .list "models" "models" ModelImports.form

def title : Text := "NormalizedDocument"

def form : Form NormalizedDocument :=
  .record title
    (fun entries =>
      NormalizedDocument.mk <$> groupsMember.read entries <*> modelsMember.read entries)
    (fun spelling d =>
      [groupsMember.write spelling d.groups, modelsMember.write spelling d.models])

end NormalizedDocument

end ApiPrep
