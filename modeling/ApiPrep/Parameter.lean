import ApiPrep.Record.Form

namespace ApiPrep

open Record

/-- A parameter of an operation. One without a base name has no identity. -/
structure Parameter where
  baseName : Option Text := none
  paramName : Option Text := none
  dataType : Option Text := none
  dataFormat : Option Text := none
  required : Bool := false
  description : Option Text := none
deriving DecidableEq, Repr, Inhabited

namespace Parameter

def baseNameMember : Member (Option Text) := .optional "baseName" "base_name" .text
def paramNameMember : Member (Option Text) := .optional "paramName" "param_name" .text
def dataTypeMember : Member (Option Text) := .optional "dataType" "data_type" .text
def dataFormatMember : Member (Option Text) := .optional "dataFormat" "data_format" .text
def requiredMember : Member Bool := .orElse "required" "required" .flag false
def descriptionMember : Member (Option Text) := .optional "description" "description" .text

def title : Text := "Parameter"

def form : Form Parameter :=
  .record title
    (fun entries =>
      Parameter.mk <$> baseNameMember.read entries <*> paramNameMember.read entries
        <*> dataTypeMember.read entries <*> dataFormatMember.read entries
        <*> requiredMember.read entries <*> descriptionMember.read entries)
    (fun spelling p =>
      [baseNameMember.write spelling p.baseName, paramNameMember.write spelling p.paramName,
        dataTypeMember.write spelling p.dataType, dataFormatMember.write spelling p.dataFormat,
        requiredMember.write spelling p.required, descriptionMember.write spelling p.description])

end Parameter

end ApiPrep
