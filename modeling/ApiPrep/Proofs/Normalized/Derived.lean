import ApiPrep.Proofs.Naming.Recovery
import ApiPrep.Proofs.Naming.TypeNames
import ApiPrep.Proofs.Normalized.Group

namespace ApiPrep

variable {c : Catalog} {s : Settings} {g : OperationGroup} {p : Promotion} {name : Text}

theorem Interleaved.subset_right {α : Type} {xs ys zs : List α} (h : Interleaved xs ys zs) :
    ys ⊆ zs := by
  induction h with
  | nil => exact List.Subset.refl []
  | left _ ih => exact List.Subset.trans ih (List.subset_cons_self _ _)
  | right _ ih => exact List.cons_subset_cons _ ih

namespace OperationGroup

variable {out : NormalizedGroup}

theorem importsOrDerived_of_nil (f : Naming.FileNames) (hn : g.imports = []) :
    g.importsOrDerived f =
      (importedTypes g.operations).map fun name => { source := f.modelImport name } := by
  rw [importsOrDerived, hn]
  rfl

theorem remaining_subset (hp : g.promotion c s = some p) : p.remaining ⊆ g.operations := by
  obtain ⟨_, creation, _, _, rfl⟩ := Promotion.detect_eq_some_iff.1 hp
  exact (Promotion.removed_interleaved c s.affixes g.operations creation).subset_right

theorem imports_of_unpromoted (hp : g.promotion c s = none)
    (h : (g.normalize c s).run.value = .ok out) :
    out.imports = (g.importsOrDerived s.fileNames).map (·.resolve s.fileNames) := by
  obtain ⟨operations, _, rfl⟩ := normalize_eq_ok_iff.1 h
  simp only [hp]
  rfl

theorem imports_of_promoted (hp : g.promotion c s = some p)
    (h : (g.normalize c s).run.value = .ok out) :
    out.imports = ((g.importsOrDerived s.fileNames).filter fun r =>
      s.fileNames.modelOfFile r.source ∈ s.envelopeTypes →
        p.Needs (s.fileNames.modelOfFile r.source)).map (·.resolve s.fileNames) := by
  obtain ⟨operations, _, rfl⟩ := normalize_eq_ok_iff.1 h
  have hsurviving : g.surviving c s = p.remaining := by
    rw [surviving, hp]
    rfl
  simp only [hp, hsurviving]
  exact pruned_resolve s p _

/-! ### Groups that are not promoted -/

/-- The imports that are derived for a group are those of its types in their order. Their classes
are these types iff the words of every type can be told from their lower-case form. -/
theorem derived_classnames_eq_iff (c : Catalog) (g : OperationGroup) (out : NormalizedGroup)
    (hn : g.imports = []) (hp : g.promotion c {} = none)
    (h : (g.normalize c {}).run.value = .ok out) :
    (out.imports = (importedTypes g.operations).map fun name =>
      let file := (Settings.fileNames {}).modelImport name
      ⟨file, some file,
        some (Naming.respell (fun word => Naming.camelize (Naming.dashize word)) name)⟩) ∧
    (out.imports.map (·.classname) = (importedTypes g.operations).map some ↔
      ∀ name ∈ importedTypes g.operations, Naming.Recoverable name.toList) := by
  have himports := imports_of_unpromoted hp h
  rw [importsOrDerived_of_nil _ hn, List.map_map] at himports
  constructor
  · rw [himports]
    refine List.map_congr_left fun name _ => ?_
    rw [Function.comp_apply, ImportRecord.resolve,
      Naming.FileNames.modelOfFile_modelImport (f := Settings.fileNames {}) rfl]
  · rw [himports, List.map_map, List.map_inj_left]
    refine forall₂_congr fun name _ => ?_
    rw [← Naming.FileNames.modelOfFile_modelImport_eq_iff (f := Settings.fileNames {}) rfl]
    exact Option.some_inj

def parsing : Operation where
  operationId := "parse"
  httpMethod := "post"
  path := "/Api/Doc"
  imports := ["GridApiResponse | string", "XMLParser"]

def parsers : OperationGroup where
  classname := "ParserService"
  operations := [parsing]

def normalizedParsers : NormalizedGroup where
  classname := "ParserService"
  apiFilename := "parser.service"
  operations := [⟨parsing⟩]
  imports := [⟨"model/grid-api-response", some "model/grid-api-response", some "GridApiResponse"⟩,
    ⟨"model/xml-parser", some "model/xml-parser", some "XmlParser"⟩]

theorem normalize_parsers :
    (parsers.normalize additionOnly {}).run.value = .ok normalizedParsers := by
  decide +kernel

theorem promotion_parsers : parsers.promotion additionOnly {} = none := by decide +kernel

theorem derived_classnames_eq_iff_parsers :
    (parsers.normalize additionOnly {}).run.value = .ok normalizedParsers ∧
    (normalizedParsers.imports.map (·.classname) = (importedTypes parsers.operations).map some ↔
      ∀ name ∈ importedTypes parsers.operations, Naming.Recoverable name.toList) :=
  ⟨normalize_parsers, (derived_classnames_eq_iff additionOnly parsers normalizedParsers rfl
    promotion_parsers normalize_parsers).2⟩

/-- The class that is recovered for an acronym is not the type that an operation takes. -/
theorem derived_classnames_ne_of_acronym :
    ∃ out, parsers.imports = [] ∧ parsers.promotion additionOnly {} = none ∧
      (parsers.normalize additionOnly {}).run.value = .ok out ∧
      out.imports.map (·.classname) ≠ (importedTypes parsers.operations).map some :=
  ⟨normalizedParsers, rfl, promotion_parsers, normalize_parsers, by decide +kernel⟩

/-! ### Promoted groups -/

/-- A promotion keeps the import of a type that an operation takes if its class is no envelope, or
is one that the promoted group needs. An envelope that is recovered from its import and not needed
is dropped, whichever operation takes it. -/
theorem derived_import_kept (c : Catalog) (s : Settings) (g : OperationGroup) (p : Promotion)
    (out : NormalizedGroup) (hn : g.imports = []) (hp : g.promotion c s = some p)
    (h : (g.normalize c s).run.value = .ok out) :
    ∀ op ∈ p.remaining, ∀ name ∈ Naming.typeNames op.imports,
      let file := s.fileNames.modelImport name
      let classname := s.fileNames.modelOfFile file
      ((classname ∈ s.envelopeTypes → p.Needs classname) →
        ⟨file, some file, some classname⟩ ∈ out.imports) ∧
      (classname = name → name ∈ s.envelopeTypes → ¬ p.Needs name →
        ∀ r ∈ out.imports, r.source ≠ file) := by
  intro op hop name hname file classname
  have himports := imports_of_promoted hp h
  have htype : name ∈ importedTypes g.operations :=
    mem_importedTypes.2 ⟨op, remaining_subset hp hop, hname⟩
  rw [himports, importsOrDerived_of_nil _ hn]
  constructor
  · intro hkept
    refine List.mem_map.2 ⟨{ source := file }, List.mem_filter.2 ⟨?_, decide_eq_true hkept⟩, rfl⟩
    exact List.mem_map.2 ⟨name, htype, rfl⟩
  · intro hclass henvelope hneeds r hr he
    obtain ⟨record, hrecord, rfl⟩ := List.mem_map.1 hr
    have hkept := of_decide_eq_true (List.mem_filter.1 hrecord).2
    have hsource : record.source = file := he
    have hname : s.fileNames.modelOfFile record.source = name := by
      rw [hsource]
      exact hclass
    rw [hname] at hkept
    exact hneeds (hkept henvelope)

def gridArchival : Operation :=
  { widgetArchival with returnBaseType := none, imports := ["GridApiResponse", "Widget"] }

def gridWidgets : OperationGroup where
  classname := "WidgetService"
  operations := [widgetAddition, gridArchival]

def normalizedGridWidgets : NormalizedGroup where
  classname := "WidgetService"
  apiFilename := "widget.service"
  operations := [⟨{ gridArchival with
    httpMethod := "post", path := "/Api/Widget/$\x7bencodeURIComponent(String(id))\x7d" }⟩]
  imports := [⟨"model/widget", some "model/widget", some "Widget"⟩]
  genericBase := some ⟨"Widget", "Widget", [widgetAddition], [gridArchival]⟩

theorem normalize_gridWidgets :
    (gridWidgets.normalize additionOnly {}).run.value = .ok normalizedGridWidgets := by
  decide +kernel

theorem promotion_gridWidgets : gridWidgets.promotion additionOnly {} =
    some ⟨"Widget", "Widget", [widgetAddition], [gridArchival]⟩ := by
  decide +kernel

theorem derived_import_kept_widget :
    (gridWidgets.normalize additionOnly {}).run.value = .ok normalizedGridWidgets ∧
    ⟨"model/widget", some "model/widget", some "Widget"⟩ ∈ normalizedGridWidgets.imports ∧
    ∀ r ∈ normalizedGridWidgets.imports, r.source ≠ "model/grid-api-response" := by
  have hkept := derived_import_kept additionOnly {} gridWidgets _ normalizedGridWidgets rfl
    promotion_gridWidgets normalize_gridWidgets gridArchival List.mem_cons_self
  have hwidget : ↑"Widget" ∈ Naming.typeNames gridArchival.imports := by decide +kernel
  have hgrid : ↑"GridApiResponse" ∈ Naming.typeNames gridArchival.imports := by decide +kernel
  refine ⟨normalize_gridWidgets, ?_, ?_⟩
  · exact (hkept "Widget" hwidget).1 (by decide +kernel)
  · exact (hkept "GridApiResponse" hgrid).2 (by decide +kernel) (by decide +kernel)
      (by decide +kernel)

/-- A promotion drops the import of an envelope that an operation of the group still takes. -/
theorem derived_import_dropped :
    ∃ p out, gridWidgets.imports = [] ∧ gridWidgets.promotion additionOnly {} = some p ∧
      (gridWidgets.normalize additionOnly {}).run.value = .ok out ∧
      gridArchival ∈ p.remaining ∧
      ↑"GridApiResponse" ∈ Naming.typeNames gridArchival.imports ∧
      ∀ r ∈ out.imports, r.source ≠ (Settings.fileNames {}).modelImport "GridApiResponse" :=
  ⟨⟨"Widget", "Widget", [widgetAddition], [gridArchival]⟩, normalizedGridWidgets, rfl,
    promotion_gridWidgets, normalize_gridWidgets, List.mem_cons_self, by decide +kernel,
    by decide +kernel⟩

end OperationGroup

end ApiPrep
