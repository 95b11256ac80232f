import ApiPrep.Normalized.Normalize
import ApiPrep.Proofs.Record.Lossless

namespace ApiPrep

open Record

theorem optionalText_lossless : (Form.optional Form.text).Lossless :=
  Form.optional_lossless Form.text_lossless Form.text_neverNull

theorem optionalFlag_lossless : (Form.optional Form.flag).Lossless :=
  Form.optional_lossless Form.flag_lossless Form.flag_neverNull

theorem textList_lossless : (Form.list Form.text).Lossless := Form.list_lossless Form.text_lossless

namespace Parameter

def slots : List (Slot Parameter) :=
  [⟨baseNameMember, (·.baseName), optionalText_lossless⟩,
    ⟨paramNameMember, (·.paramName), optionalText_lossless⟩,
    ⟨dataTypeMember, (·.dataType), optionalText_lossless⟩,
    ⟨dataFormatMember, (·.dataFormat), optionalText_lossless⟩,
    ⟨requiredMember, (·.required), Form.flag_lossless⟩,
    ⟨descriptionMember, (·.description), optionalText_lossless⟩]

theorem form_lossless : form.Lossless := by
  apply Form.record_lossless slots (by decide) (fun _ _ => rfl)
  rintro entries p ⟨hbaseName, hparamName, hdataType, hdataFormat, hrequired, hdescription⟩
  rw [hbaseName, hparamName, hdataType, hdataFormat, hrequired, hdescription]
  rfl

end Parameter

theorem parameterList_lossless : (Form.list Parameter.form).Lossless :=
  Form.list_lossless Parameter.form_lossless

namespace Operation

def slots : List (Slot Operation) :=
  [⟨operationIdMember, (·.operationId), Form.text_lossless⟩,
    ⟨httpMethodMember, (·.httpMethod), Form.text_lossless⟩,
    ⟨pathMember, (·.path), Form.text_lossless⟩,
    ⟨summaryMember, (·.summary), optionalText_lossless⟩,
    ⟨notesMember, (·.notes), optionalText_lossless⟩,
    ⟨tagsMember, (·.tags), textList_lossless⟩,
    ⟨pathParamsMember, (·.pathParams), parameterList_lossless⟩,
    ⟨queryParamsMember, (·.queryParams), parameterList_lossless⟩,
    ⟨headerParamsMember, (·.headerParams), parameterList_lossless⟩,
    ⟨bodyParamsMember, (·.bodyParams), parameterList_lossless⟩,
    ⟨hasBodyParamMember, (·.hasBodyParam), optionalFlag_lossless⟩,
    ⟨returnTypeMember, (·.returnType), optionalText_lossless⟩,
    ⟨returnBaseTypeMember, (·.returnBaseType), optionalText_lossless⟩,
    ⟨returnContainerMember, (·.returnContainer), optionalText_lossless⟩,
    ⟨importsMember, (·.imports), textList_lossless⟩]

theorem ofEntries_of_reads {entries : Entries} {op : Operation}
    (h : slots.Forall (Slot.Reads entries op)) : ofEntries entries = .ok op := by
  obtain ⟨hid, hmethod, hpath, hsummary, hnotes, htags, hpathParams, hqueryParams, hheaderParams,
    hbodyParams, hhasBody, hreturn, hreturnBase, hcontainer, himports⟩ := h
  rw [ofEntries, hid, hmethod, hpath, hsummary, hnotes, htags, hpathParams, hqueryParams,
    hheaderParams, hbodyParams, hhasBody, hreturn, hreturnBase, hcontainer, himports]
  rfl

theorem form_lossless : form.Lossless :=
  Form.record_lossless slots (by decide) (fun _ _ => rfl)
    fun _ _ h => ofEntries_of_reads h

end Operation

namespace ClientOperation

theorem read_operation (spelling : Spelling) (op : Operation) :
    form.read (Operation.form.write spelling op) = .ok ⟨op⟩ := by
  have hop : Operation.ofEntries (op.toEntries spelling) = .ok op :=
    Operation.form_lossless spelling op
  change ClientOperation.mk <$> Operation.ofEntries (op.toEntries spelling) = .ok ⟨op⟩
  rw [hop]
  rfl

def derivedLabels : List Label :=
  [⟨"isGet", "is_get"⟩, ⟨"isPost", "is_post"⟩, ⟨"isPut", "is_put"⟩, ⟨"isDelete", "is_delete"⟩,
    ⟨"isPostOrPut", "is_post_or_put"⟩, ⟨"pathNoApi", "path_no_api"⟩]

/-- Whatever stands under the keys of what is derived, it is not read. -/
theorem read_derived (spelling : Spelling) (op : ClientOperation) (held : Label → Value) :
    form.read (.map (op.toOperation.toEntries spelling ++
      spelled spelling (derivedLabels.map fun l => (l, held l)))) = .ok op := by
  obtain ⟨fields, hfields⟩ : ∃ fields, fields =
      Operation.slots.map (Slot.field spelling op.toOperation) ++
        derivedLabels.map fun l => (l, held l) := ⟨_, rfl⟩
  have hp : (fields.map Prod.fst).Pairwise Label.Apart := by
    rw [hfields]
    change ((Operation.slots.map fun p => p.member.label) ++ derivedLabels).Pairwise Label.Apart
    decide
  have hsub : Operation.slots.map (Slot.field spelling op.toOperation) ⊆ fields := by
    rw [hfields]
    exact List.subset_append_left _ _
  have hentries : op.toOperation.toEntries spelling ++
      spelled spelling (derivedLabels.map fun l => (l, held l)) = spelled spelling fields := by
    rw [hfields]
    rfl
  change ClientOperation.mk <$> Operation.ofEntries _ = .ok op
  rw [hentries, Operation.ofEntries_of_reads (Slot.forall_reads_spelled hp hsub)]
  rfl

end ClientOperation

end ApiPrep
