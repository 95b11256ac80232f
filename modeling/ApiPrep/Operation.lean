import ApiPrep.Parameter

namespace ApiPrep

open Record

/-- One endpoint as a client generator sees it. -/
structure Operation where
  operationId : Text := ""
  httpMethod : Text
  path : Text
  summary : Option Text := none
  notes : Option Text := none
  tags : List Text := []
  pathParams : List Parameter := []
  queryParams : List Parameter := []
  headerParams : List Parameter := []
  bodyParams : List Parameter := []
  hasBodyParam : Option Bool := none
  returnType : Option Text := none
  returnBaseType : Option Text := none
  returnContainer : Option Text := none
  imports : List Text := []
deriving DecidableEq, Repr, Inhabited

namespace Operation

/-- Whether a request body is sent; the body parameters decide where nothing is said. -/
def hasBody (op : Operation) : Bool := op.hasBodyParam.getD !op.bodyParams.isEmpty

def operationIdMember : Member Text := .orElse "operationId" "operation_id" .text ""
def httpMethodMember : Member Text := .required "httpMethod" "http_method" .text
def pathMember : Member Text := .required "path" "path" .text
def summaryMember : Member (Option Text) := .optional "summary" "summary" .text
def notesMember : Member (Option Text) := .optional "notes" "notes" .text
def tagsMember : Member (List Text) := .list "tags" "tags" .text
def pathParamsMember : Member (List Parameter) := .list "pathParams" "path_params" Parameter.form
def queryParamsMember : Member (List Parameter) := .list "queryParams" "query_params" Parameter.form
def headerParamsMember : Member (List Parameter) :=
  .list "headerParams" "header_params" Parameter.form
def bodyParamsMember : Member (List Parameter) := .list "bodyParams" "body_params" Parameter.form
def hasBodyParamMember : Member (Option Bool) := .optional "hasBodyParam" "has_body_param" .flag
def returnTypeMember : Member (Option Text) := .optional "returnType" "return_type" .text
def returnBaseTypeMember : Member (Option Text) :=
  .optional "returnBaseType" "return_base_type" .text
def returnContainerMember : Member (Option Text) :=
  .optional "returnContainer" "return_container" .text
def importsMember : Member (List Text) := .list "imports" "imports" .text

def ofEntries (entries : Entries) : Checked Operation :=
  Operation.mk <$> operationIdMember.read entries <*> httpMethodMember.read entries
    <*> pathMember.read entries <*> summaryMember.read entries <*> notesMember.read entries
    <*> tagsMember.read entries <*> pathParamsMember.read entries <*> queryParamsMember.read entries
    <*> headerParamsMember.read entries <*> bodyParamsMember.read entries
    <*> hasBodyParamMember.read entries <*> returnTypeMember.read entries
    <*> returnBaseTypeMember.read entries <*> returnContainerMember.read entries
    <*> importsMember.read entries

def toEntries (spelling : Spelling) (op : Operation) : Entries :=
  [operationIdMember.write spelling op.operationId, httpMethodMember.write spelling op.httpMethod,
    pathMember.write spelling op.path, summaryMember.write spelling op.summary,
    notesMember.write spelling op.notes, tagsMember.write spelling op.tags,
    pathParamsMember.write spelling op.pathParams, queryParamsMember.write spelling op.queryParams,
    headerParamsMember.write spelling op.headerParams,
    bodyParamsMember.write spelling op.bodyParams,
    hasBodyParamMember.write spelling op.hasBodyParam,
    returnTypeMember.write spelling op.returnType,
    returnBaseTypeMember.write spelling op.returnBaseType,
    returnContainerMember.write spelling op.returnContainer,
    importsMember.write spelling op.imports]

def title : Text := "Operation"

def form : Form Operation := .record title ofEntries toEntries

end Operation

end ApiPrep
