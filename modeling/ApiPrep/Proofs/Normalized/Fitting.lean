import ApiPrep.Proofs.Document.Lossless
import ApiPrep.Proofs.Record.Fitting

namespace ApiPrep

open Record Form
open Json (Fits)

theorem optionalText_fitting {depth : Nat} : (Form.optional Form.text).Fitting depth :=
  optional_fitting text_fitting

theorem textList_fitting : (Form.list Form.text).Fitting 1 := sequence_fitting _ text_fitting

theorem Parameter.form_fitting : Parameter.form.Fitting 1 := by
  apply record_fitting slots (by decide) (fun _ _ => rfl)
  exact ⟨optionalText_fitting, optionalText_fitting, optionalText_fitting, optionalText_fitting,
    flag_fitting, optionalText_fitting⟩

theorem parameterList_fitting : (Form.list Parameter.form).Fitting 2 :=
  sequence_fitting _ Parameter.form_fitting

theorem Operation.slots_fitting : slots.Forall fun p => p.member.form.Fitting 2 := by
  have htexts : (Form.list Form.text).Fitting 2 := textList_fitting.mono (by decide)
  exact ⟨text_fitting, text_fitting, text_fitting, optionalText_fitting, optionalText_fitting,
    htexts, parameterList_fitting, parameterList_fitting, parameterList_fitting,
    parameterList_fitting, optional_fitting flag_fitting, optionalText_fitting,
    optionalText_fitting, optionalText_fitting, htexts⟩

theorem ClientOperation.derivedValue_fits (op : ClientOperation) (l : Label) {depth : Nat} :
    Fits depth (op.derivedValue l) := by
  unfold derivedValue
  dsimp only
  generalize List.lookup l.plain _ = flag
  cases flag with
  | none => exact .text _
  | some b => exact .bool b

theorem ClientOperation.form_fitting : ClientOperation.form.Fitting 3 := by
  intro spelling op
  have hp : ((Operation.slots.map fun p => p.member.label) ++ derivedLabels).Pairwise
      Label.Apart := by decide
  apply fits_spelled (Operation.slots.map (Slot.field spelling op.toOperation) ++
    derivedLabels.map fun l => (l, op.derivedValue l)) hp
  apply List.forall_iff_forall_mem.2
  intro field hfield
  rcases List.mem_append.1 hfield with hfield | hfield
  · obtain ⟨p, hmem, rfl⟩ := List.mem_map.1 hfield
    exact List.forall_iff_forall_mem.1 Operation.slots_fitting p hmem spelling _
  · obtain ⟨l, -, rfl⟩ := List.mem_map.1 hfield
    exact op.derivedValue_fits l

theorem ImportRecord.form_fitting : ImportRecord.form.Fitting 1 := by
  apply record_fitting slots (by decide) (fun _ _ => rfl)
  exact ⟨text_fitting, optionalText_fitting, optionalText_fitting⟩

theorem SchemaModel.form_fitting : SchemaModel.form.Fitting 2 := by
  apply record_fitting slots (by decide) (fun _ _ => rfl)
  exact ⟨text_fitting, optionalText_fitting, textList_fitting, flag_fitting⟩

theorem ModelImport.form_fitting : ModelImport.form.Fitting 1 := by
  apply record_fitting slots (by decide) (fun _ _ => rfl)
  exact ⟨text_fitting, text_fitting⟩

theorem ModelImports.form_fitting : ModelImports.form.Fitting 3 := by
  apply record_fitting slots (by decide) (fun _ _ => rfl)
  exact ⟨SchemaModel.form_fitting,
    (sequence_fitting _ ModelImport.form_fitting).mono (by decide)⟩

theorem NormalizedGroup.form_fitting : NormalizedGroup.form.Fitting 5 := by
  intro spelling g
  have hoperations : (Form.list ClientOperation.form).Fitting 4 :=
    sequence_fitting _ ClientOperation.form_fitting
  have himports : (Form.list ImportRecord.form).Fitting 4 :=
    (sequence_fitting _ ImportRecord.form_fitting).mono (by decide)
  have hp : [classnameMember.label, apiFilenameMember.label, operationsMember.label,
      importsMember.label, ⟨"isGenericBase", "is_generic_base"⟩,
      ⟨"genericTypeName", "generic_type_name"⟩, ⟨"genericEntityName", "generic_entity_name"⟩,
      ⟨"hasExtraMethods", "has_extra_methods"⟩].Pairwise Label.Apart := by decide
  apply fits_spelled [(classnameMember.label, .text g.classname),
    (apiFilenameMember.label, .text g.apiFilename),
    (operationsMember.label, operationsMember.form.write spelling g.operations),
    (importsMember.label, importsMember.form.write spelling g.imports),
    (⟨"isGenericBase", "is_generic_base"⟩, .bool g.isGenericBase),
    (⟨"genericTypeName", "generic_type_name"⟩,
      (Form.optional Form.text).write spelling g.genericTypeName),
    (⟨"genericEntityName", "generic_entity_name"⟩,
      (Form.optional Form.text).write spelling g.genericEntityName),
    (⟨"hasExtraMethods", "has_extra_methods"⟩, .bool g.hasExtraMethods)] hp
  exact ⟨.text _, .text _, hoperations spelling g.operations, himports spelling g.imports,
    .bool _, optionalText_fitting spelling _, optionalText_fitting spelling _, .bool _⟩

/-- What is written of a normalised document has at most seven brackets open at once. -/
theorem NormalizedDocument.form_fitting : NormalizedDocument.form.Fitting 7 := by
  intro spelling d
  have hgroups : (Form.list NormalizedGroup.form).Fitting 6 :=
    sequence_fitting _ NormalizedGroup.form_fitting
  have hmodels : (Form.list ModelImports.form).Fitting 6 :=
    (sequence_fitting _ ModelImports.form_fitting).mono (by decide)
  have hp : [groupsMember.label, modelsMember.label].Pairwise Label.Apart := by decide
  apply fits_spelled [(groupsMember.label, groupsMember.form.write spelling d.groups),
    (modelsMember.label, modelsMember.form.write spelling d.models)] hp
  exact ⟨hgroups spelling d.groups, hmodels spelling d.models⟩

end ApiPrep
