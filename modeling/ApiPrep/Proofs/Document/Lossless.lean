import ApiPrep.Catalog
import ApiPrep.Proofs.Operation.Lossless

namespace ApiPrep

open Record

namespace ImportRecord

def slots : List (Slot ImportRecord) :=
  [⟨sourceMember, (·.source), Form.text_lossless⟩,
    ⟨filenameMember, (·.filename), optionalText_lossless⟩,
    ⟨classnameMember, (·.classname), optionalText_lossless⟩]

theorem form_lossless : form.Lossless := by
  apply Form.record_lossless slots (by decide) (fun _ _ => rfl)
  rintro entries r ⟨hsource, hfilename, hclassname⟩
  rw [hsource, hfilename, hclassname]
  rfl

end ImportRecord

namespace OperationGroup

def slots : List (Slot OperationGroup) :=
  [⟨classnameMember, (·.classname), Form.text_lossless⟩,
    ⟨operationsMember, (·.operations), Form.list_lossless Operation.form_lossless⟩,
    ⟨importsMember, (·.imports), Form.list_lossless ImportRecord.form_lossless⟩]

theorem form_lossless : form.Lossless := by
  apply Form.record_lossless slots (by decide) (fun _ _ => rfl)
  rintro entries g ⟨hclassname, hoperations, himports⟩
  rw [hclassname, hoperations, himports]
  rfl

end OperationGroup

namespace SchemaModel

def slots : List (Slot SchemaModel) :=
  [⟨classnameMember, (·.classname), Form.text_lossless⟩,
    ⟨nameMember, (·.name), optionalText_lossless⟩,
    ⟨importsMember, (·.imports), textList_lossless⟩,
    ⟨isAliasMember, (·.isAlias), Form.flag_lossless⟩]

theorem form_lossless : form.Lossless := by
  apply Form.record_lossless slots (by decide) (fun _ _ => rfl)
  rintro entries m ⟨hclassname, hname, himports, halias⟩
  rw [hclassname, hname, himports, halias]
  rfl

end SchemaModel

namespace InputDocument

def slots : List (Slot InputDocument) :=
  [⟨groupsMember, (·.groups), Form.list_lossless OperationGroup.form_lossless⟩,
    ⟨modelsMember, (·.models), Form.list_lossless SchemaModel.form_lossless⟩]

theorem form_lossless : form.Lossless := by
  apply Form.record_lossless slots (by decide) (fun _ _ => rfl)
  rintro entries d ⟨hgroups, hmodels⟩
  rw [hgroups, hmodels]
  rfl

end InputDocument

/-! ### Catalogs -/

theorem parameterTuple_lossless : (Form.tuple Parameter.form).Lossless :=
  Form.tuple_lossless Parameter.form_lossless

namespace Signature

def slots : List (Slot Signature) :=
  [⟨nameMember, (·.name), Form.text_lossless⟩,
    ⟨httpMethodMember, (·.httpMethod), Form.text_lossless⟩,
    ⟨hasBodyMember, (·.hasBody), Form.flag_lossless⟩,
    ⟨pathParamsMember, (·.pathParams), parameterTuple_lossless⟩,
    ⟨queryParamsMember, (·.queryParams), parameterTuple_lossless⟩]

theorem form_lossless : form.Lossless := by
  apply Form.record_lossless slots (by decide) (fun _ _ => rfl)
  rintro entries s ⟨hname, hmethod, hhasBody, hpathParams, hqueryParams⟩
  rw [hname, hmethod, hhasBody, hpathParams, hqueryParams]
  rfl

end Signature

namespace Catalog

def slots : List (Slot Catalog) :=
  [⟨signaturesMember, (·.signatures), Form.tuple_lossless Signature.form_lossless⟩,
    ⟨creationMember, (·.creation), Form.text_lossless⟩]

theorem make?_self (c : Catalog) : make? c.signatures c.creation = .ok c := by
  rw [make?, dif_pos c.nodup, dif_pos c.creation_mem]

theorem form_lossless : form.Lossless := by
  apply Form.record_lossless slots (by decide) (fun _ _ => rfl)
  rintro entries c ⟨hsignatures, hcreation⟩
  rw [hsignatures, hcreation]
  change check (c.signatures, c.creation) = .ok c
  rw [check, make?_self]

end Catalog

/-! ### Promotions and rendered records -/

theorem operationTuple_lossless : (Form.tuple Operation.form).Lossless :=
  Form.tuple_lossless Operation.form_lossless

namespace Promotion

def slots : List (Slot Promotion) :=
  [⟨entityTypeMember, (·.entityType), Form.text_lossless⟩,
    ⟨entityNameMember, (·.entityName), Form.text_lossless⟩,
    ⟨removedMember, (·.removed), operationTuple_lossless⟩,
    ⟨remainingMember, (·.remaining), operationTuple_lossless⟩]

theorem form_lossless : form.Lossless := by
  apply Form.record_lossless slots (by decide) (fun _ _ => rfl)
  rintro entries p ⟨htype, hname, hremoved, hremaining⟩
  rw [htype, hname, hremoved, hremaining]
  rfl

end Promotion

namespace ModelImport

def slots : List (Slot ModelImport) :=
  [⟨classnameMember, (·.classname), Form.text_lossless⟩,
    ⟨filenameMember, (·.filename), Form.text_lossless⟩]

theorem form_lossless : form.Lossless := by
  apply Form.record_lossless slots (by decide) (fun _ _ => rfl)
  rintro entries m ⟨hclassname, hfilename⟩
  rw [hclassname, hfilename]
  rfl

end ModelImport

namespace ModelImports

def slots : List (Slot ModelImports) :=
  [⟨modelMember, (·.model), SchemaModel.form_lossless⟩,
    ⟨importsMember, (·.imports), Form.list_lossless ModelImport.form_lossless⟩]

theorem form_lossless : form.Lossless := by
  apply Form.record_lossless slots (by decide) (fun _ _ => rfl)
  rintro entries m ⟨hmodel, himports⟩
  rw [hmodel, himports]
  rfl

end ModelImports

namespace ClientOperation

def derivedValue (op : ClientOperation) (l : Label) : Value :=
  let flags : List (Text × Bool) :=
    [("is_get", op.isGet), ("is_post", op.isPost), ("is_put", op.isPut),
      ("is_delete", op.isDelete), ("is_post_or_put", op.isPost || op.isPut)]
  (flags.lookup l.plain).elim (.text op.pathNoApi) .bool

theorem form_lossless : form.Lossless := by
  intro spelling op
  exact read_derived spelling op op.derivedValue

end ClientOperation

/-- Whatever is written of a record, in either spelling of its keys, is read as this record; what
is derived from it is passed over, whatever it says. -/
theorem forms_lossless :
    Parameter.form.Lossless ∧ Operation.form.Lossless ∧ ImportRecord.form.Lossless ∧
      OperationGroup.form.Lossless ∧ SchemaModel.form.Lossless ∧ InputDocument.form.Lossless ∧
      Signature.form.Lossless ∧ Catalog.form.Lossless ∧ Promotion.form.Lossless ∧
      ModelImports.form.Lossless ∧ ClientOperation.form.Lossless ∧
      ∀ spelling (op : ClientOperation) (held : Label → Value),
        ClientOperation.form.read (.map (op.toOperation.toEntries spelling ++
          spelled spelling (ClientOperation.derivedLabels.map fun l => (l, held l)))) = .ok op := by
  refine ⟨Parameter.form_lossless, Operation.form_lossless, ImportRecord.form_lossless,
    OperationGroup.form_lossless, SchemaModel.form_lossless, InputDocument.form_lossless,
    Signature.form_lossless, Catalog.form_lossless, Promotion.form_lossless,
    ModelImports.form_lossless, ClientOperation.form_lossless, ?_⟩
  intro spelling op held
  exact ClientOperation.read_derived spelling op held

end ApiPrep
