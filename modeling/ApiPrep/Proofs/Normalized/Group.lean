import ApiPrep.Proofs.Normalized.Imports
import ApiPrep.Proofs.Operation.Lossless
import ApiPrep.Proofs.Outcome
import ApiPrep.Proofs.Promotion.Detect

namespace ApiPrep

variable {c : Catalog} {s : Settings} {g : OperationGroup}

namespace Operation

variable {op : Operation} {r : ClientOperation}

/-- An operation as it is rendered: its path is interpolated once, its method is in lower case,
and nothing else of it is changed. It is also what the written operation is read as once these
two entries have been replaced. -/
structure RendersAs (op : Operation) (r : ClientOperation) : Prop where
  path : Path.interpolate op.path = .ok r.path
  method : r.httpMethod = Naming.respell Text.lower op.httpMethod
  others : r.toOperation = { op with httpMethod := r.httpMethod, path := r.path }
  hasBody : r.hasBody = op.hasBody
  reread : ClientOperation.form.read (.map (((op.toEntries .plain).put (.text "http_method")
    (.text r.httpMethod)).put (.text "path") (.text r.path))) = .ok r

theorem decorate_eq_ok_iff :
    op.decorate = .ok r ↔ ∃ path, Path.interpolate op.path = .ok path ∧
      r = ⟨{ op with httpMethod := Naming.respell Text.lower op.httpMethod, path := path }⟩ := by
  rw [decorate, Outcome.bind_eq_ok_iff]
  refine exists_congr fun path => and_congr_right fun _ => ?_
  exact ⟨fun h => (Except.ok.inj h).symm, fun h => congrArg Except.ok h.symm⟩

theorem put_toEntries (op : Operation) (method path : Text) :
    ((op.toEntries .plain).put (.text "http_method") (.text method)).put (.text "path")
      (.text path) = { op with httpMethod := method, path := path }.toEntries .plain := rfl

theorem rendersAs_of_decorate (h : op.decorate = .ok r) : op.RendersAs r := by
  obtain ⟨path, hpath, rfl⟩ := decorate_eq_ok_iff.1 h
  refine ⟨hpath, rfl, rfl, rfl, ?_⟩
  rw [put_toEntries]
  exact ClientOperation.read_operation .plain _

end Operation

namespace OperationGroup

def promotion (c : Catalog) (s : Settings) (g : OperationGroup) : Option Promotion :=
  (Promotion.detect c s.affixes g.operations).value

def surviving (c : Catalog) (s : Settings) (g : OperationGroup) : List Operation :=
  ((g.promotion c s).map (·.remaining)).getD g.operations

theorem length_surviving (c : Catalog) (s : Settings) (g : OperationGroup) :
    (g.surviving c s).length + (if (g.promotion c s).isSome then c.signatures.length else 0) =
      g.operations.length := by
  cases hp : g.promotion c s with
  | none => rw [surviving, hp]; rfl
  | some p =>
    obtain ⟨hcov, creation, _, _, rfl⟩ := Promotion.detect_eq_some_iff.1 hp
    have hlength := (Promotion.removed_interleaved c s.affixes g.operations creation).length
    rw [Promotion.length_removed hcov, Nat.add_comm] at hlength
    rw [surviving, hp]
    exact hlength

theorem normalize_value (c : Catalog) (s : Settings) (g : OperationGroup) :
    (g.normalize c s).run.value =
      ((g.surviving c s).mapM Operation.decorate).map fun operations =>
        ⟨g.classname, s.fileNames.apiFileOfClass g.classname, operations,
          (pruned s (g.promotion c s) (g.surviving c s)
            ((g.importsOrDerived s.fileNames).map (·.resolve s.fileNames))).value,
          g.promotion c s⟩ := by
  simp only [normalize, Traced.value_run_bind, Traced.value_run_lift, Traced.value_run_mk,
    Traced.value_run_pure]
  rfl

theorem normalize_eq_ok_iff {out : NormalizedGroup} :
    (g.normalize c s).run.value = .ok out ↔
      ∃ operations, List.Forall₂ (fun op r => op.decorate = .ok r) (g.surviving c s) operations ∧
        ⟨g.classname, s.fileNames.apiFileOfClass g.classname, operations,
          (pruned s (g.promotion c s) (g.surviving c s)
            ((g.importsOrDerived s.fileNames).map (·.resolve s.fileNames))).value,
          g.promotion c s⟩ = out := by
  rw [normalize_value, Outcome.map_eq_ok_iff]
  exact exists_congr fun operations => and_congr_left fun _ => Outcome.mapM_eq_ok_iff

/-- A group that is normalised keeps its operations but for those that a promotion removes, each
as it is rendered, and its imports but for envelopes that a promotion does not need. -/
theorem normalize_law (c : Catalog) (s : Settings) (g : OperationGroup) (out : NormalizedGroup)
    (h : (g.normalize c s).run.value = .ok out) :
    out.genericBase = (Promotion.detect c s.affixes g.operations).value ∧
    (out.isGenericBase = true ↔
      ∃ p, (Promotion.detect c s.affixes g.operations).value = some p) ∧
    List.Forall₂ Operation.RendersAs (g.surviving c s) out.operations ∧
    out.operations.length + (if (g.promotion c s).isSome then c.signatures.length else 0) =
      g.operations.length ∧
    out.classname = g.classname ∧
    (out.hasExtraMethods = true ↔ g.surviving c s ≠ []) ∧
    (g.imports ≠ [] →
      (g.promotion c s = none → out.imports = g.imports.map fun r =>
        ⟨r.source, some r.source, some (s.fileNames.modelOfFile r.source)⟩) ∧
      ∀ p, g.promotion c s = some p → out.imports =
        (g.imports.filter fun r => s.fileNames.modelOfFile r.source ∈ s.envelopeTypes →
          p.Needs (s.fileNames.modelOfFile r.source)).map fun r =>
        ⟨r.source, some r.source, some (s.fileNames.modelOfFile r.source)⟩) := by
  obtain ⟨operations, hdecorated, rfl⟩ := normalize_eq_ok_iff.1 h
  have hlength : (g.surviving c s).length = operations.length := hdecorated.length_eq
  refine ⟨rfl, Option.isSome_iff_exists, ?_, ?_, rfl, ?_, ?_⟩
  · exact hdecorated.imp fun op r hr => Operation.rendersAs_of_decorate hr
  · rw [← hlength]
    exact length_surviving c s g
  · rw [NormalizedGroup.hasExtraMethods, Bool.not_eq_true', List.isEmpty_eq_false_iff,
      ← List.length_pos_iff, ← List.length_pos_iff, hlength]
  · intro himports
    have hcarried : g.importsOrDerived s.fileNames = g.imports :=
      if_neg fun he => himports (List.isEmpty_iff.1 he)
    constructor
    · intro hp
      rw [hcarried, hp]
      rfl
    · intro p hp
      have hsurviving : g.surviving c s = p.remaining := by
        rw [surviving, hp]
        rfl
      rw [hcarried, hp, hsurviving]
      exact pruned_resolve s p g.imports

def widgetAddition : Operation where
  operationId := "add"
  httpMethod := "post"
  path := "/Api/Widget/Add"
  hasBodyParam := some true
  returnType := some "Widget"

def widgetArchival : Operation where
  operationId := "archive"
  httpMethod := "POST"
  path := "/Api/Widget/\x7bid\x7d"
  returnBaseType := some "GridApiResponse"

def additionOnly : Catalog := ⟨[⟨"add", "post", true, [], []⟩], "add", by decide, by decide⟩

def widgets : OperationGroup where
  classname := "WidgetService"
  operations := [widgetAddition, widgetArchival]
  imports := [⟨"model/widget", none, none⟩, ⟨"model/datahistory", none, none⟩,
    ⟨"model/grid-api-response", none, none⟩]

def normalizedWidgets : NormalizedGroup where
  classname := "WidgetService"
  apiFilename := "widget.service"
  operations := [⟨{ widgetArchival with
    httpMethod := "post", path := "/Api/Widget/$\x7bencodeURIComponent(String(id))\x7d" }⟩]
  imports := [⟨"model/widget", some "model/widget", some "Widget"⟩,
    ⟨"model/grid-api-response", some "model/grid-api-response", some "GridApiResponse"⟩]
  genericBase := some ⟨"Widget", "Widget", [widgetAddition], [widgetArchival]⟩

theorem normalize_law_widgets :
    (widgets.normalize additionOnly {}).run.value = .ok normalizedWidgets ∧
    List.Forall₂ Operation.RendersAs (widgets.surviving additionOnly {})
      normalizedWidgets.operations ∧
    normalizedWidgets.operations.length +
        (if (widgets.promotion additionOnly {}).isSome then additionOnly.signatures.length else 0) =
      widgets.operations.length := by
  have h : (widgets.normalize additionOnly {}).run.value = .ok normalizedWidgets := by
    decide +kernel
  obtain ⟨_, _, hrendered, hlength, _⟩ := normalize_law additionOnly {} widgets normalizedWidgets h
  exact ⟨h, hrendered, hlength⟩

end OperationGroup

end ApiPrep
